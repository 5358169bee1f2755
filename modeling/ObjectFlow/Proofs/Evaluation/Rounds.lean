import Mathlib.Data.Set.Card
import Mathlib.Logic.Relation
import ObjectFlow.Proofs.Evaluation.Statement

/-!
# Evaluating in rounds

A statement may write what it reads, so it is evaluated in rounds until nothing
is left for it to see.  After each round a rule says what the next one sees:
everything as long as something was added (`followAll`), or only what the round
added to nodes that the statement subscribes to (`followGrowth`).

Such a rule is thorough if it never leaves out anything that the demand of the
statement depends on.  Then every round meets the demand of all that was known
before it, and where the rounds end the demand of the statement is met.  As no
round goes beyond a set that is closed under the demand, all thorough rules
lead to the least such set, or all to a failure, or all go on forever.
-/

namespace ObjectFlow

open Effect Demand

/-! ## Graphs that meet a demand -/

/-- Only that a node or an object is known.  An evaluation may make such facts without answering
that it added anything. -/
def Fact.IsMention : Fact → Prop
  | .object _ | .node _ => True
  | _ => False

def mentions : Set Fact := {fact | fact.IsMention}

theorem not_mention_of_listed {fact : Fact} (isListed : fact.IsListed) : fact ∉ mentions := by
  cases fact <;> simp_all [mentions, Fact.IsMention, Fact.IsListed]

namespace Graph

def unseen (graph : Graph) (growth : Delta) : Set Fact :=
  {fact | ∃ node id place object, fact = .edge place object ∧ graph.place? node = some place ∧
    graph.object? id = some object ∧ graph.HasEdge node id ∧ (⟨node, id⟩ : Edge) ∉ growth.edges}

private theorem unseen_subset_facts (graph : Graph) (growth : Delta) (reader : SubscriberId) :
    graph.unseen growth ⊆ graph.facts reader := by
  rintro _ ⟨node, id, place, object, rfl, located, named, held, _⟩
  exact ⟨node, id, located, named, held⟩

end Graph

namespace Frame

variable (frame : Frame) (statement : Statement)

/-- What the statement demands of the graph is there, or only not yet mentioned. -/
def Settled (graph : Graph) : Prop :=
  frame.demand statement (graph.facts frame.subscriber) ⊆ graph.facts frame.subscriber ∪ mentions

variable {frame statement}

theorem Settled.closed {graph : Graph} (settled : frame.Settled statement graph) :
    frame.demand statement (graph.facts frame.subscriber ∪ mentions) ⊆
      graph.facts frame.subscriber ∪ mentions :=
  (demand_edges fun _ _ edge => edge.resolve_right (not_mention_of_listed trivial)).trans settled

/-! ## Rounds -/

section Rounds

variable (frame statement) (follow : EvalState → Option View)

/-- Evaluate, and again as long as there is something to follow, in at most so many rounds. -/
def rounds : (limit : Nat) → View → EvalState → Option (Except Failure Graph)
  | 0, _, _ => none
  | limit + 1, view, state =>
      match frame.evaluate statement view { state with produced := ∅ } with
      | (.error failure, _) => some (.error failure)
      | (.ok _, after) =>
          match follow after with
          | none => some (.ok after.graph)
          | some next => rounds limit next after

def followAll (after : EvalState) : Option View :=
  if after.produced.isEmpty then none else some .full

def ownGrowth (frame : Frame) (after : EvalState) : Delta :=
  ⟨after.produced.edges.restrict fun node =>
    (after.graph.subscribers? node).any (·.contains frame.subscriber), ∅, ∅⟩

def followGrowth (frame : Frame) (after : EvalState) : Option View :=
  if (frame.ownGrowth after).edges.isEmpty then none else some (.delta (frame.ownGrowth after))

structure Turn (stage next : View × EvalState) : Prop where
  run : frame.evaluate statement stage.1 { stage.2 with produced := ∅ } = (.ok (), next.2)
  goesOn : follow next.2 = some next.1

variable {frame statement follow}

theorem rounds_of_error {view : View} {state after : EvalState} {failure : Failure}
    (run : frame.evaluate statement view { state with produced := ∅ } = (.error failure, after))
    (limit : Nat) :
    frame.rounds statement follow (limit + 1) view state = some (.error failure) := by
  rw [rounds, run]

theorem rounds_of_done {view : View} {state after : EvalState}
    (run : frame.evaluate statement view { state with produced := ∅ } = (.ok (), after))
    (done : follow after = none) (limit : Nat) :
    frame.rounds statement follow (limit + 1) view state = some (.ok after.graph) := by
  rw [rounds, run]
  dsimp only
  rw [done]

theorem Turn.rounds {stage next : View × EvalState} (turn : frame.Turn statement follow stage next)
    (limit : Nat) : frame.rounds statement follow (limit + 1) stage.1 stage.2 =
      frame.rounds statement follow limit next.1 next.2 := by
  rw [Frame.rounds, turn.run]
  dsimp only
  rw [turn.goesOn]

private theorem Turn.rightUnique : Relator.RightUnique (frame.Turn statement follow) := by
  rintro stage ⟨view, state⟩ ⟨view', state'⟩ turn turn'
  obtain rfl : state = state' := (Prod.mk.inj (turn.run.symm.trans turn'.run)).2
  obtain rfl : view = view' := Option.some.inj (turn.goesOn.symm.trans turn'.goesOn)
  rfl

theorem round_cases (frame : Frame) (statement : Statement) (follow : EvalState → Option View)
    (stage : View × EvalState) :
    (∃ failure after, frame.evaluate statement stage.1 { stage.2 with produced := ∅ } =
        (.error failure, after)) ∨
      (∃ after, frame.evaluate statement stage.1 { stage.2 with produced := ∅ } = (.ok (), after) ∧
        follow after = none) ∨
      ∃ next, frame.Turn statement follow stage next := by
  cases run : frame.evaluate statement stage.1 { stage.2 with produced := ∅ } with
  | mk outcome after =>
      cases outcome with
      | error failure => exact .inl ⟨failure, after, rfl⟩
      | ok value =>
          cases goesOn : follow after with
          | none => exact .inr (.inl ⟨after, rfl, goesOn⟩)
          | some view => exact .inr (.inr ⟨(view, after), run, goesOn⟩)

end Rounds

/-! ## What one round does -/

variable (frame statement) in
/-- What the statement has not been shown yet is shown by the view. -/
def Ready (view : View) (graph : Graph) : Prop :=
  match view with
  | .full => True
  | .delta growth =>
      (∀ node id, (⟨node, id⟩ : Edge) ∈ growth.edges → graph.HasEdge node id) ∧
      frame.demand statement (graph.unseen growth) ⊆ graph.facts frame.subscriber ∪ mentions

variable (frame statement) in
structure Pass (graph : Graph) (after : EvalState) : Prop where
  growth : Graph.Growth frame.subscriber graph after.graph after.produced
  valid : after.graph.Valid
  met : frame.demand statement (graph.facts frame.subscriber) ⊆
    after.graph.facts frame.subscriber ∪ mentions

variable {graph : Graph} {view : View} {requests : Requests} {bound : Set Fact}

theorem evaluate_meets (requests : Requests) (pure : frame.abstraction.policy.IsPure)
    (valid : graph.Valid)
    (ready : frame.Ready statement view graph) (inside : graph.facts frame.subscriber ⊆ bound)
    (closed : frame.demand statement bound ⊆ bound) :
    Meets frame.subscriber bound (frame.evaluate statement view) ⟨graph, requests, ∅⟩
      fun _ after => frame.demand statement (graph.facts frame.subscriber) ⊆
        after.graph.facts frame.subscriber ∪ mentions := by
  have starts : Inside frame.subscriber bound ⟨graph, requests, ∅⟩ := ⟨valid, inside⟩
  cases view with
  | full =>
      have shows : (View.full).Shows graph (graph.facts frame.subscriber) :=
        View.shows_full frame.subscriber fun _ _ edge => edge
      refine (evaluate_settles pure starts shows closed).mono ?_
      exact fun _ _ _ _ settles => settles.trans Set.subset_union_left
  | delta growth =>
      obtain ⟨within, met⟩ := ready
      have known := graph.unseen_subset_facts growth frame.subscriber
      refine (evaluate_catchesUp pure starts (View.shows_delta within)
        (View.shows_union within known) closed).mono ?_
      intro _ after grows _ catches
      have there := catches (after.graph.facts frame.subscriber ∪ mentions) Set.subset_union_left
        (met.trans (Set.union_subset_union_left _ (grows.facts _)))
      refine (demand_edges ?_).trans there
      rintro place object ⟨node, id, located, named, held⟩
      by_cases listed : (⟨node, id⟩ : Edge) ∈ growth.edges
      · exact .inr ⟨node, id, place, object, rfl, located, named, listed⟩
      · exact .inl ⟨node, id, place, object, rfl, located, named, held, listed⟩

theorem evaluate_passes (pure : frame.abstraction.policy.IsPure) (valid : graph.Valid)
    (ready : frame.Ready statement view graph) (inside : graph.facts frame.subscriber ⊆ bound)
    (closed : frame.demand statement bound ⊆ bound) {after : EvalState}
    (run : frame.evaluate statement view ⟨graph, requests, ∅⟩ = (.ok (), after)) :
    frame.Pass statement graph after ∧ after.graph.facts frame.subscriber ⊆ bound := by
  have meets := evaluate_meets requests pure valid ready inside closed
  unfold Meets at meets
  rw [run] at meets
  obtain ⟨⟨delta, growth, collected⟩, ⟨valid, inside⟩, met⟩ := meets
  rw [Delta.empty_join] at collected
  exact ⟨⟨collected ▸ growth, valid, met⟩, inside⟩

private theorem failure_of_run (pure : frame.abstraction.policy.IsPure) (valid : graph.Valid)
    (ready : frame.Ready statement view graph) (inside : graph.facts frame.subscriber ⊆ bound)
    (closed : frame.demand statement bound ⊆ bound) {failure : Failure} {after : EvalState}
    (run : frame.evaluate statement view ⟨graph, requests, ∅⟩ = (.error failure, after)) :
    .failure ∈ bound := by
  have meets := evaluate_meets requests pure valid ready inside closed
  unfold Meets at meets
  rw [run] at meets
  exact meets

/-- A view shows enough if it leaves out new edges only at nodes that are not watched. -/
theorem ready_of_watched {grown : Graph} {facts total : Set Fact} {growth : Delta}
    (met : frame.demand statement facts ⊆ total)
    (there : total ⊆ grown.facts frame.subscriber ∪ mentions)
    (within : ∀ node id, (⟨node, id⟩ : Edge) ∈ growth.edges → grown.HasEdge node id)
    (seen : ∀ node id place object, grown.place? node = some place →
      grown.object? id = some object → grown.HasEdge node id → (⟨node, id⟩ : Edge) ∉ growth.edges →
      .watch place ∈ total → .edge place object ∈ facts) :
    frame.Ready statement (.delta growth) grown := by
  refine ⟨within, ((frame.demand_degree statement).isLocal ?_ met).trans there⟩
  rintro place object ⟨node, id, _, _, same, located, named, held, unlisted⟩ watched
  cases same
  exact seen node id place object located named held unlisted watched

/-! ## Thorough rules -/

variable (frame statement) in
/-- The rule follows all that the demand depends on, and goes on only if something was added. -/
structure Thorough (follow : EvalState → Option View) : Prop where
  adds : ∀ {after view}, follow after = some view → after.produced ≠ ∅
  ready : ∀ {graph after view}, graph.Valid → frame.Pass statement graph after →
    follow after = some view → frame.Ready statement view after.graph
  settled : ∀ {graph after}, graph.Valid → frame.Pass statement graph after →
    follow after = none → frame.Settled statement after.graph

theorem followAll_thorough (frame : Frame) (statement : Statement) :
    frame.Thorough statement followAll where
  adds {after view} goesOn := by
    rintro isEmpty
    unfold followAll at goesOn
    rw [isEmpty] at goesOn
    cases goesOn
  ready {graph after view} _ _ goesOn := by
    unfold followAll at goesOn
    split at goesOn
    · cases goesOn
    · cases goesOn
      trivial
  settled {graph after} valid pass done := by
    have isEmpty : after.produced = ∅ := by
      unfold followAll at done
      split at done
      · next isEmpty => exact Delta.isEmpty_iff.mp isEmpty
      · cases done
    have growth := pass.growth
    rw [isEmpty] at growth
    exact (demand_edges fun _ _ said => growth.edge_of_empty valid said).trans pass.met

theorem mem_ownGrowth {after : EvalState} {edge : Edge} :
    edge ∈ (frame.ownGrowth after).edges ↔
      edge ∈ after.produced.edges ∧ after.graph.Watched edge.node frame.subscriber := by
  rw [ownGrowth, EdgeMap.mem_restrict, Option.any_eq_true]
  simp only [OrderedSet.contains_iff]
  rfl

private theorem followGrowth_eq_none {after : EvalState} :
    frame.followGrowth after = none ↔ (frame.ownGrowth after).edges = ∅ := by
  simp [followGrowth, EdgeMap.isEmpty_iff]

private theorem followGrowth_eq_some {after : EvalState} {view : View} :
    frame.followGrowth after = some view ↔
      (frame.ownGrowth after).edges ≠ ∅ ∧ .delta (frame.ownGrowth after) = view := by
  simp [followGrowth, EdgeMap.isEmpty_iff]

private theorem Pass.ready_ownGrowth {after : EvalState} (pass : frame.Pass statement graph after)
    (valid : graph.Valid) :
    frame.Ready statement (.delta (frame.ownGrowth after)) after.graph := by
  refine ready_of_watched pass.met subset_rfl ?_ ?_
  · intro node id member
    exact ((pass.growth.edges node id).mp (mem_ownGrowth.mp member).1).1
  · intro node id place object located named held unlisted watched
    have watched := watched.resolve_right fun mention => mention.elim
    have watched := Graph.watched_of_watch watched located
    have earlier : graph.HasEdge node id := by
      by_contra isNew
      exact unlisted (mem_ownGrowth.mpr ⟨(pass.growth.edges node id).mpr ⟨held, isNew⟩, watched⟩)
    obtain ⟨located, named⟩ := pass.growth.names_of_hasEdge valid earlier located named
    exact ⟨node, id, located, named, earlier⟩

theorem followGrowth_thorough (frame : Frame) (statement : Statement) :
    frame.Thorough statement frame.followGrowth where
  adds {after view} goesOn := by
    intro isEmpty
    refine (followGrowth_eq_some.mp goesOn).1 (EdgeMap.ext fun edge => ?_)
    rw [mem_ownGrowth, isEmpty]
    exact and_iff_left_of_imp fun listed => absurd listed (EdgeMap.not_mem_empty edge)
  ready {graph after view} valid pass goesOn := by
    obtain ⟨_, rfl⟩ := followGrowth_eq_some.mp goesOn
    exact pass.ready_ownGrowth valid
  settled {graph after} valid pass done := by
    obtain ⟨_, met⟩ := pass.ready_ownGrowth valid
    refine (demand_edges ?_).trans met
    rintro place object ⟨node, id, located, named, held⟩
    refine ⟨node, id, place, object, rfl, located, named, held, ?_⟩
    rw [followGrowth_eq_none.mp done]
    exact EdgeMap.not_mem_empty _

/-! ## Where rounds lead -/

variable (frame statement) in
structure Poised (stage : View × EvalState) : Prop where
  valid : stage.2.graph.Valid
  ready : frame.Ready statement stage.1 stage.2.graph

section Ends

variable {follow other : EvalState → Option View} {stage stage' next : View × EvalState}
  {outcome : Except Failure Graph}

theorem Turn.passInside (turn : frame.Turn statement follow stage next)
    (pure : frame.abstraction.policy.IsPure) (poised : frame.Poised statement stage)
    (inside : stage.2.graph.facts frame.subscriber ⊆ bound)
    (closed : frame.demand statement bound ⊆ bound) :
    frame.Pass statement stage.2.graph next.2 ∧ next.2.graph.facts frame.subscriber ⊆ bound :=
  evaluate_passes pure poised.valid poised.ready inside closed turn.run

theorem Turn.pass (turn : frame.Turn statement follow stage next)
    (pure : frame.abstraction.policy.IsPure) (poised : frame.Poised statement stage) :
    frame.Pass statement stage.2.graph next.2 :=
  (turn.passInside pure poised (Set.subset_univ _) (Set.subset_univ _)).1

theorem Turn.poised (turn : frame.Turn statement follow stage next)
    (pure : frame.abstraction.policy.IsPure) (thorough : frame.Thorough statement follow)
    (poised : frame.Poised statement stage) : frame.Poised statement next :=
  have pass := turn.pass pure poised
  ⟨pass.valid, thorough.ready poised.valid pass turn.goesOn⟩

variable (frame statement) in
def Reaches (bound : Set Fact) (graph : Graph) : Except Failure Graph → Prop
  | .ok last => graph.Extends last ∧ last.facts frame.subscriber ⊆ bound ∧
      frame.Settled statement last
  | .error _ => .failure ∈ bound

theorem rounds_reach (pure : frame.abstraction.policy.IsPure)
    (thorough : frame.Thorough statement follow) (poised : frame.Poised statement stage)
    (inside : stage.2.graph.facts frame.subscriber ⊆ bound)
    (closed : frame.demand statement bound ⊆ bound) {limit : Nat}
    (ends : frame.rounds statement follow limit stage.1 stage.2 = some outcome) :
    frame.Reaches statement bound stage.2.graph outcome := by
  induction limit generalizing stage with
  | zero => cases ends
  | succ limit ih =>
      rcases round_cases frame statement follow stage with
        ⟨failure, after, run⟩ | ⟨after, run, done⟩ | ⟨next, turn⟩
      · rw [rounds_of_error run] at ends
        cases ends
        exact failure_of_run pure poised.valid poised.ready inside closed run
      · rw [rounds_of_done run done] at ends
        cases ends
        obtain ⟨pass, inside⟩ := evaluate_passes pure poised.valid poised.ready inside closed run
        exact ⟨pass.growth.toExtends, inside, thorough.settled poised.valid pass done⟩
      · rw [turn.rounds] at ends
        obtain ⟨pass, inside⟩ := turn.passInside pure poised inside closed
        have reaches := ih (turn.poised pure thorough poised) inside ends
        cases outcome with
        | error failure => exact reaches
        | ok last => exact ⟨pass.growth.toExtends.trans reaches.1, reaches.2⟩

/-- A graph that meets the demand bounds all rounds from any graph that it extends. -/
theorem rounds_reach_settled (pure : frame.abstraction.policy.IsPure)
    (thorough : frame.Thorough statement follow) (poised : frame.Poised statement stage)
    {last : Graph} (growth : stage.2.graph.Extends last) (settled : frame.Settled statement last)
    {limit : Nat} (ends : frame.rounds statement follow limit stage.1 stage.2 = some outcome) :
    frame.Reaches statement (last.facts frame.subscriber ∪ mentions) stage.2.graph outcome :=
  rounds_reach pure thorough poised
    ((growth.facts_subset frame.subscriber).trans Set.subset_union_left) settled.closed ends

/-- Both failed, or both came to graphs with the same edges, calls and initializers. -/
def Alike : Except Failure Graph → Except Failure Graph → Prop
  | .ok graph, .ok other =>
      ∀ reader fact, fact.IsListed → (graph.Says reader fact ↔ other.Says reader fact)
  | .error _, .error _ => True
  | _, _ => False

private theorem says_of_subset {graph other : Graph} {reader : SubscriberId}
    (subset : graph.facts reader ⊆ other.facts reader ∪ mentions) {someone : SubscriberId}
    {fact : Fact} (isListed : fact.IsListed) (said : graph.Says someone fact) :
    other.Says someone fact := by
  have plain : ∀ place, fact ≠ .watch place := by
    rintro place rfl
    exact isListed
  refine Graph.says_of_ne_watch plain ((subset ?_).resolve_right (not_mention_of_listed isListed))
  exact Graph.says_of_ne_watch plain said

private theorem failure_notMem (graph : Graph) (reader : SubscriberId) :
    .failure ∉ graph.facts reader ∪ mentions := by
  rintro (said | mention)
  · exact graph.failure_notMem_facts reader said
  · exact mention

/-- Rounds that start from one graph lead to the same, whatever is followed thoroughly. -/
theorem rounds_alike (pure : frame.abstraction.policy.IsPure)
    (thorough : frame.Thorough statement follow) (thorough' : frame.Thorough statement other)
    (poised : frame.Poised statement stage) (poised' : frame.Poised statement stage')
    (same : stage'.2.graph = stage.2.graph) {limit limit' : Nat}
    {outcome outcome' : Except Failure Graph}
    (ends : frame.rounds statement follow limit stage.1 stage.2 = some outcome)
    (ends' : frame.rounds statement other limit' stage'.1 stage'.2 = some outcome') :
    Alike outcome outcome' := by
  have all := rounds_reach pure thorough poised (Set.subset_univ _) (Set.subset_univ _) ends
  have all' := rounds_reach pure thorough' poised' (Set.subset_univ _) (Set.subset_univ _) ends'
  rw [same] at all'
  have reach : ∀ {last}, stage.2.graph.Extends last → frame.Settled statement last →
      frame.Reaches statement (last.facts frame.subscriber ∪ mentions) stage.2.graph outcome :=
    fun growth settled => rounds_reach_settled pure thorough poised growth settled ends
  have reach' : ∀ {last}, stage.2.graph.Extends last → frame.Settled statement last →
      frame.Reaches statement (last.facts frame.subscriber ∪ mentions) stage'.2.graph outcome' :=
    fun growth settled => rounds_reach_settled pure thorough' poised' (same ▸ growth) settled ends'
  cases outcome with
  | error failure =>
      cases outcome' with
      | error failure' => trivial
      | ok last' => exact failure_notMem _ _ (reach all'.1 all'.2.2)
  | ok last =>
      cases outcome' with
      | error failure' => exact failure_notMem _ _ (reach' all.1 all.2.2)
      | ok last' =>
          intro reader fact isListed
          exact ⟨says_of_subset (reach all'.1 all'.2.2).2.1 isListed,
            says_of_subset (reach' all.1 all.2.2).2.1 isListed⟩

/-! ## That rounds end -/

variable (frame statement follow) in
def Ends (stage : View × EvalState) : Prop :=
  ∃ limit outcome, frame.rounds statement follow limit stage.1 stage.2 = some outcome

theorem Turn.ends (turn : frame.Turn statement follow stage next)
    (ends : frame.Ends statement follow next) : frame.Ends statement follow stage := by
  obtain ⟨limit, outcome, ends⟩ := ends
  exact ⟨limit + 1, outcome, (turn.rounds limit).trans ends⟩

theorem exists_turn (endless : ¬ frame.Ends statement follow stage) :
    ∃ next, frame.Turn statement follow stage next ∧ ¬ frame.Ends statement follow next := by
  rcases round_cases frame statement follow stage with
    ⟨failure, after, run⟩ | ⟨after, run, done⟩ | ⟨next, turn⟩
  · exact absurd ⟨1, _, rounds_of_error run 0⟩ endless
  · exact absurd ⟨1, _, rounds_of_done run done 0⟩ endless
  · exact ⟨next, turn, fun ends => endless (turn.ends ends)⟩

private theorem Thorough.exists_new (thorough : frame.Thorough statement follow)
    (turn : frame.Turn statement follow stage next)
    (pass : frame.Pass statement stage.2.graph next.2) :
    ∃ fact ∈ next.2.graph.facts frame.subscriber, fact.IsListed ∧
      fact ∉ stage.2.graph.facts frame.subscriber := by
  by_contra nothing
  push Not at nothing
  exact thorough.adds turn.goesOn (pass.growth.delta_eq_empty pass.valid nothing)

/-- The number of listed facts that are still missing goes down. -/
theorem ends_of_finite (pure : frame.abstraction.policy.IsPure)
    (thorough : frame.Thorough statement follow) (poised : frame.Poised statement stage)
    (inside : stage.2.graph.facts frame.subscriber ⊆ bound)
    (closed : frame.demand statement bound ⊆ bound)
    (finite : {fact | fact ∈ bound ∧ fact.IsListed}.Finite) :
    frame.Ends statement follow stage := by
  let missing (graph : Graph) : Set Fact :=
    {fact | (fact ∈ bound ∧ fact.IsListed) ∧ fact ∉ graph.facts frame.subscriber}
  induction isCount : (missing stage.2.graph).ncard using Nat.strong_induction_on
    generalizing stage with
  | _ count ih =>
      by_contra endless
      obtain ⟨next, turn, endless'⟩ := exists_turn endless
      obtain ⟨pass, inside'⟩ := turn.passInside pure poised inside closed
      obtain ⟨fact, said, isListed, isNew⟩ := thorough.exists_new turn pass
      have fewer : (missing next.2.graph).ncard < count := by
        rw [← isCount]
        refine Set.ncard_lt_ncard ⟨?_, fun back => ?_⟩ (finite.subset fun _ here => here.1)
        · exact fun _ here => ⟨here.1, fun said => here.2 (pass.growth.facts_subset _ said)⟩
        · exact (back ⟨⟨inside' said, isListed⟩, isNew⟩).2 said
      exact endless' (ih _ fewer (turn.poised pure thorough poised) inside' rfl)

variable (frame statement follow) in
abbrev Turns : View × EvalState → View × EvalState → Prop :=
  Relation.ReflTransGen (frame.Turn statement follow)

theorem Poised.turns (poised : frame.Poised statement stage)
    (pure : frame.abstraction.policy.IsPure) (thorough : frame.Thorough statement follow)
    (turns : frame.Turns statement follow stage next) : frame.Poised statement next := by
  induction turns with
  | refl => exact poised
  | tail _ turn ih => exact turn.poised pure thorough ih

private theorem endless_of_turns (endless : ¬ frame.Ends statement follow stage)
    (turns : frame.Turns statement follow stage next) : ¬ frame.Ends statement follow next := by
  induction turns with
  | refl => exact endless
  | tail _ turn ih => exact fun ends => ih (turn.ends ends)

private theorem facts_subset_of_turns (pure : frame.abstraction.policy.IsPure)
    (thorough : frame.Thorough statement follow) (poised : frame.Poised statement stage)
    (turns : frame.Turns statement follow stage next) :
    stage.2.graph.facts frame.subscriber ⊆ next.2.graph.facts frame.subscriber := by
  induction turns with
  | refl => exact subset_rfl
  | tail before turn ih =>
      have pass := turn.pass pure (poised.turns pure thorough before)
      exact ih.trans (pass.growth.facts_subset _)

variable (frame statement follow stage) in
def stages : Set (Set Fact) :=
  {facts | ∃ last, frame.Turns statement follow stage last ∧
    facts = last.2.graph.facts frame.subscriber}

private theorem directed_stages (pure : frame.abstraction.policy.IsPure)
    (thorough : frame.Thorough statement follow) (poised : frame.Poised statement stage) :
    DirectedOn (· ⊆ ·) (frame.stages statement follow stage) := by
  rintro _ ⟨first, turns, rfl⟩ _ ⟨second, turns', rfl⟩
  rcases turns.total_of_right_unique Turn.rightUnique turns' with between | between
  · exact ⟨_, ⟨second, turns', rfl⟩,
      facts_subset_of_turns pure thorough (poised.turns pure thorough turns) between, subset_rfl⟩
  · exact ⟨_, ⟨first, turns, rfl⟩, subset_rfl,
      facts_subset_of_turns pure thorough (poised.turns pure thorough turns') between⟩

/-- What is demanded of all stages of an endless run is demanded of one of them, and met in the
next. -/
theorem closed_stages (pure : frame.abstraction.policy.IsPure)
    (thorough : frame.Thorough statement follow) (poised : frame.Poised statement stage)
    (endless : ¬ frame.Ends statement follow stage) :
    frame.demand statement (⋃₀ frame.stages statement follow stage ∪ mentions) ⊆
      ⋃₀ frame.stages statement follow stage ∪ mentions := by
  intro fact demanded
  have demanded : fact ∈ frame.demand statement (⋃₀ frame.stages statement follow stage) :=
    demand_edges (fun _ _ edge => edge.resolve_right (not_mention_of_listed trivial)) demanded
  have nonempty : (frame.stages statement follow stage).Nonempty := ⟨_, stage, .refl, rfl⟩
  obtain ⟨_, ⟨last, turns, rfl⟩, demanded⟩ := (frame.demand_degree statement).of_directed nonempty
    (directed_stages pure thorough poised) demanded
  obtain ⟨next, turn, _⟩ := exists_turn (endless_of_turns endless turns)
  have pass := turn.pass pure (poised.turns pure thorough turns)
  exact (pass.met demanded).imp_left fun said => ⟨_, ⟨next, turns.tail turn, rfl⟩, said⟩

private theorem ends_of_failure (pure : frame.abstraction.policy.IsPure)
    (thorough : frame.Thorough statement follow) (poised : frame.Poised statement stage)
    (fails : ∀ bound, stage.2.graph.facts frame.subscriber ⊆ bound →
      frame.demand statement bound ⊆ bound → .failure ∈ bound) :
    frame.Ends statement follow stage := by
  by_contra endless
  have inside : stage.2.graph.facts frame.subscriber ⊆ ⋃₀ frame.stages statement follow stage :=
    Set.subset_sUnion_of_mem ⟨stage, .refl, rfl⟩
  rcases fails _ (inside.trans Set.subset_union_left)
    (closed_stages pure thorough poised endless) with ⟨_, ⟨last, _, rfl⟩, said⟩ | mention
  · exact last.2.graph.failure_notMem_facts _ said
  · exact mention

/-- Whether rounds end does not depend on what is followed thoroughly. -/
theorem ends_of_ends (pure : frame.abstraction.policy.IsPure)
    (thorough : frame.Thorough statement follow) (thorough' : frame.Thorough statement other)
    (poised : frame.Poised statement stage) (poised' : frame.Poised statement stage')
    (same : stage'.2.graph = stage.2.graph) (ends : frame.Ends statement follow stage) :
    frame.Ends statement other stage' := by
  obtain ⟨limit, outcome, ends⟩ := ends
  cases outcome with
  | error failure =>
      refine ends_of_failure pure thorough' poised' fun bound inside closed => ?_
      exact rounds_reach pure thorough poised (same ▸ inside) closed ends
  | ok last =>
      obtain ⟨growth, _, settled⟩ :=
        rounds_reach pure thorough poised (Set.subset_univ _) (Set.subset_univ _) ends
      have inside : stage'.2.graph.facts frame.subscriber ⊆
          last.facts frame.subscriber ∪ mentions := by
        rw [same]
        exact (growth.facts_subset _).trans Set.subset_union_left
      refine ends_of_finite pure thorough' poised' inside settled.closed ?_
      refine (List.finite_toSet last.listing).subset ?_
      rintro fact ⟨said, isListed⟩
      exact Graph.mem_listing (said.resolve_right (not_mention_of_listed isListed)) isListed

end Ends

end Frame

end ObjectFlow
