import ObjectFlow.Proofs.Evaluation.Safety
import ObjectFlow.Proofs.Evaluation.Statement

/-!
# How evaluations fail

A statement whose demand is covered does not fail.  A call that looks for the
method of its receiver fails only with a receiver of a type that has no such
method, and exceptions that are handed to handlers only at a handler whose
variable is flow-sensitive.
-/

namespace ObjectFlow

open Effect Eval Demand

/-- The evaluation fails in an allowed way or not at all. -/
def FailsOnly {α : Type} (allowed : Failure → EvalState → Prop) (evaluation : Eval α)
    (state : EvalState) : Prop :=
  ∀ failure after, evaluation state = (.error failure, after) → allowed failure after

namespace FailsOnly

variable {α β : Type} {reader : SubscriberId} {bound : Set Fact} {state : EvalState}
  {allowed : Failure → EvalState → Prop} {evaluation : Eval α} {goal : α → EvalState → Prop}

private theorem of_meets (safe : .failure ∉ bound)
    (meets : Meets reader bound evaluation state goal) : FailsOnly allowed evaluation state := by
  intro failure after run
  unfold Meets at meets
  rw [run] at meets
  exact absurd meets safe

theorem bind {next : α → Eval β} (safe : .failure ∉ bound)
    (first : Meets reader bound evaluation state goal)
    (rest : ∀ value after, Grows reader state after → Inside reader bound after →
      goal value after → FailsOnly allowed (next value) after) :
    FailsOnly allowed (evaluation >>= next) state := by
  intro failure last run
  unfold Meets at first
  rw [run_bind] at run
  split at first
  · next value after evaluated =>
      rw [evaluated] at run
      obtain ⟨grows, inside, reached⟩ := first
      exact rest value after grows inside reached failure last run
  · exact absurd first safe

theorem pure (value : α) : FailsOnly allowed (Pure.pure value) state := by
  intro failure after run
  cases run

theorem of_error {next : α → Eval β} {failure : Failure} {after : EvalState}
    (run : evaluation state = (.error failure, after)) (here : allowed failure after) :
    FailsOnly allowed (evaluation >>= next) state := by
  intro failure' after' run'
  rw [run_bind, run] at run'
  cases run'
  exact here

end FailsOnly

private theorem Meets.widen {α : Type} {reader : SubscriberId} {bound wider : Set Fact}
    {evaluation : Eval α} {state : EvalState} {goal : α → EvalState → Prop}
    (meets : Meets reader bound evaluation state goal) (subset : bound ⊆ wider) :
    Meets reader wider evaluation state goal := by
  unfold Meets at meets ⊢
  split at meets
  · obtain ⟨grows, inside, reached⟩ := meets
    exact ⟨grows, ⟨inside.valid, inside.facts.trans subset⟩, reached⟩
  · exact subset meets

private theorem Effect.run_mapM_error {σ α β : Type} {body : α → ExceptT Failure (StateM σ) β}
    {state : σ} {bad : Failure → Prop} {items : List α}
    (each : ∀ item ∈ items, (∃ value, body item state = (.ok value, state)) ∨
      ∃ failure, body item state = (.error failure, state) ∧ bad failure)
    (missing : ∃ item ∈ items, ∀ value, body item state ≠ (.ok value, state)) :
    ∃ failure, items.mapM body state = (.error failure, state) ∧ bad failure := by
  induction items with
  | nil =>
      obtain ⟨_, member, _⟩ := missing
      cases member
  | cons item items ih =>
      rw [List.mapM_cons]
      rcases each item List.mem_cons_self with ⟨value, run⟩ | ⟨failure, run, isBad⟩
      · obtain ⟨other, member, refused⟩ := missing
        rcases List.mem_cons.mp member with rfl | later
        · exact absurd run (refused value)
        · obtain ⟨failure, rest, isBad⟩ :=
            ih (fun other member => each other (List.mem_cons_of_mem _ member))
              ⟨other, later, refused⟩
          exact ⟨failure, by simp only [run_bind, run, rest], isBad⟩
      · exact ⟨failure, by simp only [run_bind, run], isBad⟩

namespace Frame

variable {β : Type} {frame : Frame} {statement : Statement} {known bound : Set Fact}
  {state : EvalState} {view : View}

theorem failure_notMem_covered (hierarchy : Hierarchy) : Fact.failure ∉ hierarchy.covered := id

theorem types_covered (hierarchy : Hierarchy) : hierarchy.Types hierarchy.covered :=
  Hierarchy.types_of_subset (Set.subset_insert _ _)

theorem Covers.hasType_of_shown (covers : frame.Covers statement)
    (inside : Inside frame.subscriber frame.hierarchy.covered state) {declared : Variable}
    {point : Option PointId} {sources : List Source} {object : HeapObject}
    (found : frame.sources? declared point = some sources)
    (isShown : object ∈ shown sources (state.graph.facts frame.subscriber)) :
    frame.hierarchy.HasType object.type := by
  have types := Hierarchy.types_of_subset (inside.facts.trans (Set.subset_insert Fact.failure _))
  exact covers.hasType_of_seen types (seen_of_sources found isShown)

theorem read_within (pure : frame.abstraction.policy.IsPure) {declared : Variable}
    {point : Option PointId} {sources : List Source}
    (inside : Inside frame.subscriber bound state) (shows : view.Shows state.graph known)
    (found : frame.sources? declared point = some sources)
    (closed : looks sources bound ⊆ bound) :
    Meets frame.subscriber bound (frame.read view declared point) state fun ids after =>
      Names after.graph ids (shown sources known)
        (shown sources (state.graph.facts frame.subscriber)) := by
  let narrow : Set Fact := {fact | fact ∈ bound ∧ ∀ place object, fact = .edge place object →
    fact ∈ state.graph.facts frame.subscriber}
  have inside' : Inside frame.subscriber narrow state :=
    ⟨inside.valid, fun fact said => ⟨inside.facts said, fun _ _ _ => said⟩⟩
  have closed' : looks sources narrow ⊆ narrow := by
    intro fact looked
    refine ⟨closed (looked.mono fun _ _ _ edge => edge.1), ?_⟩
    rintro place object rfl
    cases looked
  refine ((read_meets pure inside' shows found closed').mono ?_).widen fun _ member => member.1
  intro ids after _ _ reads
  refine ⟨fun id member => ?_, reads.names.complete⟩
  obtain ⟨object, isShown, named⟩ := reads.names.sound id member
  exact ⟨object, shown_mono (fun _ _ _ edge => edge.2 _ _ rfl) isShown, named⟩

/-! ## Calls -/

/-- The call looks for a method of an object whose type has no concrete one, and its failure says
so. -/
structure Lacks (frame : Frame) (call : Call) (declared : Method) (object : HeapObject)
    (failure : Failure) : Prop where
  isVirtual : call.kind = .virtual
  missing : ¬ frame.hierarchy.Provides object.type declared.selector
  reported : ∃ typeName text, frame.hierarchy.typeName? object.type = some typeName ∧
    frame.program.describeStatement? frame.statement = some text ∧
    failure = .error (.unresolvedTarget declared.selector.render typeName text
      frame.context.render)

/-- The call reads a receiver that is an object of the declaring class but lacks the method. -/
def Unresolved (frame : Frame) (statement : Statement) (call : Call) (failure : Failure)
    (after : EvalState) : Prop :=
  ∃ receiver sources declared object, call.receiver = some receiver ∧
    frame.sources? receiver statement.point = some sources ∧
    object ∈ shown sources (after.graph.facts frame.subscriber) ∧
    frame.hierarchy.method? call.callee = some declared ∧
    frame.hierarchy.isSubtype? object.type declared.declaring = some true ∧
    frame.Lacks call declared object failure

section Call

variable {call : Call} {declared : Method} {object : HeapObject}

private theorem resolveReceiver_run (covers : frame.Covers statement) {id : ObjectId}
    (named : state.graph.object? id = some object)
    (here : frame.hierarchy.HasType object.type) :
    (∃ callee, frame.callee? call declared object = some callee ∧
      frame.resolveReceiver call declared id state = (.ok (targetOf callee id), state)) ∨
    ∃ failure, frame.Lacks call declared object failure ∧
      frame.resolveReceiver call declared id state = (.error failure, state) := by
  cases isKind : call.kind with
  | static =>
      exact .inl ⟨call.callee, by rw [callee?, isKind], by rw [resolveReceiver, isKind]; rfl⟩
  | special =>
      exact .inl ⟨call.callee, by rw [callee?, isKind], by rw [resolveReceiver, isKind]; rfl⟩
  | virtual =>
      obtain ⟨answer, isAnswer⟩ := here.exists_resolveMethod? declared.selector
      obtain ⟨typeName, isName⟩ := here.exists_typeName?
      obtain ⟨text, described⟩ := covers.described
      cases answer with
      | some callee =>
          refine .inl ⟨callee, by rw [callee?, isKind]; exact congrArg Option.join isAnswer, ?_⟩
          simp only [resolveReceiver, isKind, run_bind, objectType_run named, isAnswer,
            run_inRange_some]
          rfl
      | none =>
          have missing := covers.linked.not_provides isAnswer
          refine .inr ⟨_, ⟨isKind, missing, typeName, text, isName, described, rfl⟩, ?_⟩
          simp only [resolveReceiver, isKind, run_bind, objectType_run named, isAnswer,
            run_inRange_some, isName, describe, described, run_fail]

private theorem resolve_cases (covers : frame.Covers statement)
    (isDeclared : frame.hierarchy.method? call.callee = some declared) {ids : IdSet}
    {most : Set HeapObject} (names : Names state.graph ids ∅ most)
    (here : ∀ object ∈ most, frame.hierarchy.HasType object.type) :
    (∀ id ∈ ids, ∀ object, state.graph.object? id = some object →
      frame.hierarchy.isSubtype? object.type declared.declaring = some true →
      ∃ callee, frame.callee? call declared object = some callee) ∨
    ∃ failure, frame.resolve call ids state = (.error failure, state) ∧
      ∃ object ∈ most, frame.hierarchy.isSubtype? object.type declared.declaring = some true ∧
        frame.Lacks call declared object failure := by
  have names := names.listed
  have isClass := covers.linked.hasType_of_method? isDeclared
  rcases filter_names frame.hierarchy ⟨declared.declaring, []⟩ names with
    ⟨kept, filtered, names', _⟩ | ⟨_, object, isMost, refused⟩
  · by_cases resolves : ∀ id ∈ kept, ∀ object, state.graph.object? id = some object →
        ∃ callee, frame.callee? call declared object = some callee
    · refine .inl fun id member object named accepted => ?_
      rw [← TypeFilter.accepts?_any] at accepted
      obtain ⟨other, isKept, named'⟩ := names'.complete object ⟨⟨id, member, named⟩, accepted⟩
      exact resolves other isKept object named'
    · right
      push Not at resolves
      obtain ⟨id, isKept, object, named, unresolved⟩ := resolves
      have each : ∀ item ∈ kept.toList,
          (∃ value, frame.resolveReceiver call declared item state = (.ok value, state)) ∨
          ∃ failure, frame.resolveReceiver call declared item state = (.error failure, state) ∧
            ∃ object ∈ most,
              frame.hierarchy.isSubtype? object.type declared.declaring = some true ∧
              frame.Lacks call declared object failure := by
        intro item member
        obtain ⟨object, ⟨isMost, accepted⟩, named⟩ := names'.sound item member
        rw [TypeFilter.accepts?_any] at accepted
        rcases resolveReceiver_run covers named (here object isMost) with
          ⟨callee, _, run⟩ | ⟨failure, lacks, run⟩
        · exact .inl ⟨_, run⟩
        · exact .inr ⟨failure, run, object, isMost, accepted, lacks⟩
      have missing : ∃ item ∈ kept.toList, ∀ value,
          frame.resolveReceiver call declared item state ≠ (.ok value, state) := by
        refine ⟨id, isKept, fun value same => ?_⟩
        obtain ⟨other, ⟨isMost, _⟩, named'⟩ := names'.sound id isKept
        cases named.symm.trans named'
        rcases resolveReceiver_run covers named (here object isMost) with
          ⟨callee, found, _⟩ | ⟨failure, _, run⟩
        · exact unresolved callee found
        · cases run.symm.trans same
      obtain ⟨failure, run, isBad⟩ := run_mapM_error each missing
      refine ⟨failure, ?_, isBad⟩
      simp only [resolve, run_bind, isDeclared, run_inRange_some, run_get, filtered]
      exact run
  · have answered := covers.linked.exists_accepts? (here object isMost)
      (show frame.hierarchy.HasType (⟨declared.declaring, []⟩ : TypeFilter).type from isClass)
      (by simp)
    obtain ⟨answer, isAnswer⟩ := answered
    cases refused.symm.trans isAnswer

private theorem linking_failsOnly (pure : frame.abstraction.policy.IsPure)
    (covers : frame.Covers statement) (isCall : statement.action = .call call)
    (isDeclared : frame.hierarchy.method? call.callee = some declared)
    (inside : Inside frame.subscriber frame.hierarchy.covered state)
    (shows : view.Shows state.graph known) {ids : IdSet} {most : Set HeapObject}
    (names : Names state.graph ids ∅ most)
    (here : ∀ object ∈ most, frame.hierarchy.HasType object.type)
    {allowed : Failure → EvalState → Prop} {next : PUnit → Eval β}
    (lacking : ∀ object ∈ most, ∀ failure,
      frame.hierarchy.isSubtype? object.type declared.declaring = some true →
      frame.Lacks call declared object failure → allowed failure state)
    (rest : ∀ after, Grows frame.subscriber state after →
      Inside frame.subscriber frame.hierarchy.covered after →
      FailsOnly allowed (next ⟨⟩) after) :
    FailsOnly allowed
      (do
        let targets ← frame.resolve call ids
        let done ← targets.forM (frame.link statement call view)
        next done)
      state := by
  rcases resolve_cases covers isDeclared names here with
    resolves | ⟨failure, run, object, isMost, accepted, lacks⟩
  · let all : Set HeapObject := {object | ∃ id ∈ ids, state.graph.object? id = some object}
    have names' : Names state.graph ids ∅ all := by
      refine ⟨fun id member => ?_, nofun⟩
      obtain ⟨object, _, named⟩ := names.sound id member
      exact ⟨object, ⟨id, member, named⟩, named⟩
    have closed : ∀ object ∈ all, frame.linking statement call declared object
        frame.hierarchy.covered ⊆ frame.hierarchy.covered := by
      rintro object ⟨id, member, named⟩
      obtain ⟨other, isMost, named'⟩ := names.sound id member
      cases named.symm.trans named'
      have isType := here object isMost
      refine covers.linking_subset (types_covered _) isCall subset_rfl isDeclared isType ?_
      intro accepted missing
      obtain ⟨callee, found⟩ := resolves id member object named accepted
      cases missing.symm.trans found
    have linked := linking_meets pure isDeclared inside shows names' closed
    have whole := FailsOnly.bind (failure_notMem_covered _) linked
      fun _ after grows inside' _ => rest after grows inside'
    simpa only [bind_assoc] using whole
  · exact .of_error run (lacking object isMost failure accepted lacks)

theorem evaluateCall_failsOnly (pure : frame.abstraction.policy.IsPure)
    (covers : frame.Covers statement) (isCall : statement.action = .call call)
    {receiver : Variable} (isReceiver : call.receiver = some receiver)
    (inside : Inside frame.subscriber frame.hierarchy.covered state)
    (shows : view.Shows state.graph ∅) :
    FailsOnly (frame.Unresolved statement call) (frame.evaluateCall statement call view) state := by
  obtain ⟨declared, isDeclared⟩ := covers.exists_method? isCall
  obtain ⟨sources, found⟩ : ∃ sources, frame.sources? receiver statement.point = some sources :=
    covers.exists_sources? (by simp [isCall, Action.used, isReceiver])
  have closed := covers.looks_covered (types_covered _) found
  have lacking : ∀ {before after : EvalState}, Grows frame.subscriber before after →
      ∀ object ∈ shown sources (before.graph.facts frame.subscriber), ∀ failure,
        frame.hierarchy.isSubtype? object.type declared.declaring = some true →
        frame.Lacks call declared object failure →
        frame.Unresolved statement call failure after :=
    fun grows object isShown failure accepted lacks =>
      ⟨receiver, sources, declared, object, isReceiver, found,
        shown_mono (fun _ _ _ edge => grows.facts _ edge) isShown, isDeclared, accepted, lacks⟩
  have showsAll : ∀ after : EvalState, (View.full).Shows after.graph ∅ :=
    fun after => View.shows_full frame.subscriber fun _ _ none => (Set.notMem_empty _ none).elim
  unfold evaluateCall
  simp only [isReceiver]
  refine .bind (failure_notMem_covered _) (read_within pure inside shows found closed) ?_
  intro fresh after₁ grows₁ inside₁ names₁
  refine linking_failsOnly pure covers isCall isDeclared inside₁ (showsAll after₁)
    ⟨names₁.sound, fun _ none => (Set.notMem_empty _ none).elim⟩
    (fun object => covers.hasType_of_shown inside found) (lacking grows₁) ?_
  intro after₂ grows₂ inside₂
  cases view with
  | full => exact .pure ()
  | delta growth =>
      refine .bind (failure_notMem_covered _)
        (read_within pure inside₂ (showsAll after₂) found closed) ?_
      intro everything after₃ grows₃ inside₃ names₃
      have shows₃ := View.Shows.stable _ ∅ (grows₁.trans (grows₂.trans grows₃)) shows
      have names₄ : Names after₃.graph (everything.filter fun id => !fresh.contains id) ∅
          (shown sources (after₂.graph.facts frame.subscriber)) :=
        ⟨fun id member => names₃.sound id (OrderedSet.mem_filter.mp member).1,
          fun _ none => (Set.notMem_empty _ none).elim⟩
      have last := linking_failsOnly pure covers isCall isDeclared inside₃ shows₃ names₄
        (fun object => covers.hasType_of_shown inside₂ found) (lacking grows₃)
        fun _ _ _ => .pure PUnit.unit
      simpa only [bind_pure] using last

end Call

/-! ## Exceptions -/

/-- An exception that the statement reads comes to a handler whose variable is flow-sensitive. -/
def Unplaced (frame : Frame) (statement : Statement) (source : Variable) (handlers : List Handler)
    (failure : Failure) (after : EvalState) : Prop :=
  ∃ sources object handler name text, frame.sources? source statement.point = some sources ∧
    object ∈ shown sources (after.graph.facts frame.subscriber) ∧ handler ∈ handlers ∧
    handler.target.flowSensitive = true ∧
    frame.program.describeVariable? handler.target.id = some name ∧
    frame.program.describeStatement? frame.statement = some text ∧
    failure = .error (.missingProgramPoint name text frame.context.render)

private theorem target_run_missing {declared : Variable} {name text : String}
    (sensitive : declared.flowSensitive = true)
    (isName : frame.program.describeVariable? declared.id = some name)
    (described : frame.program.describeStatement? frame.statement = some text) :
    frame.target declared none state =
      (.error (.error (.missingProgramPoint name text frame.context.render)), state) := by
  simp only [target, sensitive, if_true, missingPoint, run_bind, isName, run_inRange_some,
    describe, described, run_fail]

theorem Covers.exists_kill (covers : frame.Covers statement) {write : Variable × Option PointId}
    (member : write ∈ statement.writes) (sensitive : write.1.flowSensitive = true)
    (other : write.1 ∉ statement.action.handled) : ∃ point,
    statement.kill? = some (point, write.1.id) ∧ frame.target write.1 write.2 =
      onGraph (Graph.node (.localAt (frame.replica write.1) point)) := by
  obtain ⟨declared, given⟩ := write
  obtain ⟨point, rfl, writes⟩ := (covers.writes _ member sensitive).resolve_left other
  obtain ⟨isTarget, isPoint⟩ := Statement.defined?_of_writes member
  refine ⟨point, Statement.kill?_eq_some.mpr ⟨declared, isTarget, isPoint, sensitive, rfl⟩, ?_⟩
  unfold target
  rw [if_pos sensitive]
  exact if_pos writes

private theorem raiseTo_failsOnly (covers : frame.Covers statement) {raised : IdSet}
    {most : Set HeapObject} {summary : Variable} {caught : List TypeId} {handlers : List Handler}
    {allowed : Failure → EvalState → Prop}
    (inside : Inside frame.subscriber frame.hierarchy.covered state)
    (names : Names state.graph raised ∅ most)
    (here : ∀ object ∈ most, frame.hierarchy.HasType object.type)
    (plain : summary.flowSensitive = false)
    (isCaught : ∀ type ∈ caught, frame.hierarchy.HasType type)
    (isHandler : ∀ handler ∈ handlers, frame.hierarchy.HasType handler.type)
    (missing : ∀ handler ∈ handlers, handler.target.flowSensitive = true →
      ∃ failure, (∀ after, frame.target handler.target none after = (.error failure, after)) ∧
        ∀ after, Grows frame.subscriber state after → allowed failure after) :
    FailsOnly allowed (frame.raiseTo raised summary caught handlers) state := by
  have safe := failure_notMem_covered frame.hierarchy
  induction handlers generalizing state caught with
  | nil =>
      obtain ⟨place, written⟩ := frame.written?_of_plain plain none
      unfold raiseTo
      refine .bind safe (target_meets inside written trivial) ?_
      intro node after grows inside' located
      exact .of_meets safe (addEdgesFiltered_meets inside' located (Names.stable _ _ _ grows names)
        (fun object isMost => filtered_covered covers.linked (here object isMost)
          covers.linked.table.throwable isCaught) ∅)
  | cons handler handlers ih =>
      have isType := isHandler handler List.mem_cons_self
      unfold raiseTo
      cases sensitive : handler.target.flowSensitive with
      | true =>
          obtain ⟨failure, run, isAllowed⟩ := missing handler List.mem_cons_self sensitive
          exact .of_error (run state) (isAllowed state (.refl state))
      | false =>
          obtain ⟨place, written⟩ := frame.written?_of_plain sensitive none
          refine .bind safe (target_meets inside written trivial) ?_
          intro node after₁ grows₁ inside₁ located
          have names₁ := Names.stable _ _ _ grows₁ names
          refine .bind safe (addEdgesFiltered_meets inside₁ located names₁
            (fun object isMost => filtered_covered covers.linked (here object isMost) isType
              isCaught) ∅) ?_
          intro _ after₂ grows₂ inside₂ _
          have caught' : ∀ type ∈ caught ++ [handler.type], frame.hierarchy.HasType type := by
            intro type member
            rcases List.mem_append.mp member with earlier | new
            · exact isCaught type earlier
            · exact List.mem_singleton.mp new ▸ isType
          refine ih inside₂ (Names.stable _ _ _ grows₂ names₁) caught'
            (fun other member => isHandler other (List.mem_cons_of_mem _ member))
            fun other member isSensitive => ?_
          obtain ⟨failure, run, isAllowed⟩ :=
            missing other (List.mem_cons_of_mem _ member) isSensitive
          exact ⟨failure, run, fun after grows =>
            isAllowed after ((grows₁.trans grows₂).trans grows)⟩

theorem raise_failsOnly (pure : frame.abstraction.policy.IsPure) (covers : frame.Covers statement)
    {source summary : Variable} {handlers : List Handler}
    (isRaise : statement.action = .raise source handlers summary)
    (plain : summary.flowSensitive = false)
    (named : ∀ handler ∈ handlers, ∃ name,
      frame.program.describeVariable? handler.target.id = some name)
    (inside : Inside frame.subscriber frame.hierarchy.covered state)
    (shows : view.Shows state.graph ∅) :
    FailsOnly (frame.Unplaced statement source handlers) (frame.evaluate statement view)
      state := by
  obtain ⟨sources, found⟩ : ∃ sources, frame.sources? source statement.point = some sources :=
    covers.exists_sources? (by simp [isRaise, Action.used])
  obtain ⟨text, described⟩ := covers.described
  have closed := covers.looks_covered (types_covered _) found
  have isHandler : ∀ handler ∈ handlers, frame.hierarchy.HasType handler.type := by
    have isCovered := covers.action
    rw [isRaise] at isCovered
    exact isCovered
  unfold evaluate
  rw [isRaise]
  refine .bind (failure_notMem_covered _) (read_within pure inside shows found closed) ?_
  intro raised after grows inside' names
  split
  · exact .pure ()
  · next nonempty =>
      rw [OrderedSet.isEmpty_iff] at nonempty
      push Not at nonempty
      obtain ⟨first, isFirst⟩ := nonempty
      obtain ⟨object, isShown, _⟩ := names.sound first isFirst
      refine raiseTo_failsOnly covers inside'
        ⟨names.sound, fun _ none => (Set.notMem_empty _ none).elim⟩
        (fun object => covers.hasType_of_shown inside found)
        plain (by simp) isHandler fun handler member sensitive => ?_
      obtain ⟨name, isName⟩ := named handler member
      refine ⟨_, fun after => target_run_missing sensitive isName described, ?_⟩
      intro last grows'
      have later := grows.trans grows'
      exact ⟨sources, object, handler, name, text, found,
        shown_mono (fun _ _ _ edge => later.facts _ edge) isShown, member, sensitive, isName,
        described, rfl⟩

end Frame

end ObjectFlow
