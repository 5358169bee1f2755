import ObjectFlow.Proofs.Evaluation.Call

/-!
# What evaluating a statement achieves

`evaluate_settles`: seen in full, a statement brings about all that it demands
of the graph it started from.  `evaluate_catchesUp`: if the demand of the old
edges was met, an evaluation that only sees the new ones meets the demand of
both.  Neither adds anything outside a bound that is closed under the demand.
-/

namespace ObjectFlow

open Effect Eval Demand

/-- If what the graph says, and perhaps more, meets the demand of what was known before, then it
meets that of all that is known now. -/
def CatchesUp (reader : SubscriberId) (old new : Set Fact) (demand : Demand) (state : EvalState) :
    Prop :=
  ∀ total, state.graph.facts reader ⊆ total → demand old ⊆ total → demand (old ∪ new) ⊆ total

namespace CatchesUp

variable {α : Type} {reader : SubscriberId} {old new : Set Fact} {state : EvalState}
  {growth : Delta} {demand : Demand}

/-- For a linear demand it is enough to look at what is new. -/
theorem of_settles (linear : DegreeAtMost 1 demand)
    (settles : Settles reader (.delta growth) new demand state) :
    CatchesUp reader old new demand state := by
  intro total said met fact demanded
  rcases linear.union old new demanded with found | found
  · exact met found
  · exact said (settles found)

theorem both {first second : Demand} (here : CatchesUp reader old new first state)
    (there : CatchesUp reader old new second state) :
    CatchesUp reader old new (both first second) state := by
  intro total said met
  obtain ⟨met, met'⟩ := Set.union_subset_iff.mp met
  exact Set.union_subset (here total said met) (there total said met')

theorem orFail {value : Option α} {found : α} {body : α → Demand} (same : value = some found)
    (catches : CatchesUp reader old new (body found) state) :
    CatchesUp reader old new (orFail value body) state := by
  subst same
  exact catches

private theorem reading {sources : List Source} {body : HeapObject → Demand}
    (linear : ∀ object, DegreeAtMost 1 (body object))
    (looked : unwatched (looks sources new) ⊆ state.graph.facts reader)
    (fresh : ∀ object ∈ shown sources new, body object (old ∪ new) ⊆ state.graph.facts reader)
    (seen : ∀ object ∈ shown sources old, body object (old ∪ new) ⊆ state.graph.facts reader ∨
      unwatched (body object new) ⊆ state.graph.facts reader) :
    CatchesUp reader old new (reading sources body) state := by
  intro total said met fact demanded
  rcases reading_union linear old new demanded with
    (found | found) | ⟨object, isSeen, found⟩ | ⟨object, isFresh, found⟩
  · exact met found
  · exact said (looked found)
  · rcases seen object isSeen with whole | part
    · exact said (whole ((linear object).mono Set.subset_union_right found.1))
    · exact said (part found)
  · exact said (fresh object isFresh found)

theorem of_reads {bound : Set Fact} {sources : List Source} {body : HeapObject → Demand}
    {fresh all : IdSet} (linear : ∀ object, DegreeAtMost 1 (body object))
    (reads : Reads reader bound (.delta growth) sources new fresh state)
    (readsAll : Reads reader bound .full sources (old ∪ new) all state)
    (whole : ∀ id ∈ fresh, ∀ object, state.graph.object? id = some object →
      Settles reader .full (old ∪ new) (body object) state)
    (part : ∀ id ∈ all, ∀ object, state.graph.object? id = some object → id ∉ fresh →
      Settles reader (.delta growth) new (body object) state) :
    CatchesUp reader old new (Demand.reading sources body) state := by
  refine reading linear reads.looked (fun object isFresh => ?_) fun object isSeen => ?_
  · obtain ⟨id, member, named⟩ := reads.names.complete object isFresh
    exact whole id member object named
  · have isSeen : object ∈ shown sources (old ∪ new) := shown_union.symm ▸ .inl isSeen
    obtain ⟨id, member, named⟩ := readsAll.names.complete object isSeen
    by_cases isFresh : id ∈ fresh
    · exact .inl (whole id isFresh object named)
    · exact .inr (part id member object named isFresh)

end CatchesUp

namespace Frame

variable {frame : Frame} {bound known : Set Fact} {state : EvalState} {view : View}

/-! ## Loads -/

theorem grow_copyEdges (frame : Frame) (source target : NodeId) :
    grow (Graph.copyEdges source target frame.subscriber) =
      (do
        let objects ← frame.view .full source
        grow (Graph.addEdges target objects)) := by
  funext state
  simp only [view, grow, Eval.onGraph, Graph.copyEdges, run_bind, run_get]
  cases Graph.read source frame.subscriber state.graph with
  | mk outcome graph =>
      cases outcome with
      | error failure => rfl
      | ok objects =>
          simp only [run_set, run_pure, run_bind]
          cases Graph.addEdges target objects graph with
          | mk outcome after => cases outcome <;> rfl

section Load

variable {point : Option PointId} {target base : Variable} {key : FieldKey} {node : NodeId}
  {place : Place}

private theorem fetching_meets {id : ObjectId} {object : HeapObject}
    (inside : Inside frame.subscriber bound state) (shows : view.Shows state.graph known)
    (located : state.graph.place? node = some place)
    (named : state.graph.object? id = some object)
    (closed : frame.fetching key place object bound ⊆ bound) :
    Meets frame.subscriber bound
      (do
        if ← frame.holdsField id key then
          let source ← frame.fieldNode id key
          let grown ← frame.view view source
          grow (Graph.addEdges node grown))
      state fun _ => Settles frame.subscriber view known (frame.fetching key place object) := by
  refine .bind_congr (holdsField_run frame key named) ?_
  refine inRange_bind closed ?_
  intro holds answered closed
  cases holds with
  | false => exact .pure inside (.orFail answered .nothing)
  | true =>
      refine fieldNode_bind inside named closed
        (fun _ => .inr (.node (List.mem_singleton_self (Source.direct _)))) ?_
      intro slot found closed source after grows inside' located'
      obtain ⟨moved, looking⟩ := Set.union_subset_iff.mp closed
      have shows := View.Shows.stable view known grows shows
      refine (direct_meets inside' shows located' looking).bind ?_
      intro ids after₁ grows₁ inside₁ reads
      refine (addEdges_meets inside₁ (grows₁.place (grows.place located)) reads.names
        fun held seen => moved ⟨held, seen, rfl⟩).mono ?_
      intro _ last grows₂ _ edges
      refine .orFail answered (.orFail found (.reading (reads.stable ids grows₂).looked ?_))
      exact fun held seen => .fixed (Set.singleton_subset_iff.mpr (edges held seen))

private theorem loading_settles (pure : frame.abstraction.policy.IsPure)
    (inside : Inside frame.subscriber bound state) (shows : (View.full).Shows state.graph known)
    (closed : frame.loading point target base key bound ⊆ bound) :
    Meets frame.subscriber bound (frame.evaluateLoad .full point target base key) state fun _ =>
      Settles frame.subscriber .full known (frame.loading point target base key) := by
  unfold evaluateLoad
  refine target_bind inside closed (fun _ => .inl rfl) ?_
  intro place written closed node after grows inside' located
  have shows := View.Shows.stable .full known grows shows
  refine read_bind pure inside' shows (both_closed closed).2 ?_
  intro sources found closed ids after₁ grows₁ inside₁ reads
  have shows := View.Shows.stable .full known grows₁ shows
  refine (Meets.forEach (fun _ object => Settles frame.subscriber .full known
    (frame.fetching key place object)) (fun _ _ => Settles.stable _) inside₁ reads.names ?_).bind ?_
  · intro id _ object allowed after₂ grows₂ inside₂ named
    simp only [grow_copyEdges]
    exact fetching_meets inside₂ (View.Shows.stable .full known grows₂ shows)
      (grows₂.place (grows₁.place located)) named (closed object allowed)
  · intro _ after₂ grows₂ inside₂ fetched
    have reads := reads.stable ids grows₂
    refine Meets.pure inside₂ (.orFail written (.both (.fixed ?_) (.orFail found (.reading
      reads.looked fun object seen => ?_))))
    · exact Set.singleton_subset_iff.mpr ⟨node, grows₂.place (grows₁.place located)⟩
    · obtain ⟨id, member, named⟩ := reads.names.complete object seen
      exact fetched id member object named

private theorem loading_catchesUp (pure : frame.abstraction.policy.IsPure) {old new : Set Fact}
    {growth : Delta} (inside : Inside frame.subscriber bound state)
    (shows : (View.delta growth).Shows state.graph new)
    (showsAll : (View.full).Shows state.graph (old ∪ new))
    (closed : frame.loading point target base key bound ⊆ bound) :
    Meets frame.subscriber bound (frame.evaluateLoad (.delta growth) point target base key) state
      fun _ => CatchesUp frame.subscriber old new (frame.loading point target base key) := by
  unfold evaluateLoad
  refine target_bind inside closed (fun _ => .inl rfl) ?_
  intro place written closed node after grows inside' located
  have observes := (both_closed closed).2
  have shows := View.Shows.stable _ new grows shows
  have showsAll := View.Shows.stable _ (old ∪ new) grows showsAll
  refine read_bind pure inside' shows observes ?_
  intro sources found closed fresh after₁ grows₁ inside₁ reads
  have shows := View.Shows.stable _ new grows₁ shows
  have showsAll := View.Shows.stable _ (old ∪ new) grows₁ showsAll
  refine (Meets.forEach (fun _ object => Settles frame.subscriber .full (old ∪ new)
    (frame.fetching key place object)) (fun _ _ => Settles.stable _) inside₁ reads.names ?_).bind ?_
  · intro id _ object allowed after₂ grows₂ inside₂ named
    simp only [grow_copyEdges]
    exact fetching_meets inside₂ (View.Shows.stable .full _ grows₂ showsAll)
      (grows₂.place (grows₁.place located)) named (closed object allowed)
  · intro _ after₂ grows₂ inside₂ fetched
    have shows := View.Shows.stable _ new grows₂ shows
    have showsAll := View.Shows.stable _ (old ∪ new) grows₂ showsAll
    refine read_bind pure inside₂ showsAll observes ?_
    intro sources' found' _ all after₃ grows₃ inside₃ readsAll
    obtain rfl := Option.some.inj (found.symm.trans found')
    have shows := View.Shows.stable _ new grows₃ shows
    refine (Meets.forEach (fun id object after => id ∉ fresh → Settles frame.subscriber
      (.delta growth) new (frame.fetching key place object) after)
      (fun _ _ _ _ grows met other => Settles.stable _ grows (met other)) inside₃ readsAll.names
      ?_).mono ?_
    · intro id _ object allowed after₄ grows₄ inside₄ named
      by_cases isFresh : id ∈ fresh
      · simp only [OrderedSet.contains_iff.mpr isFresh, if_true]
        exact .pure inside₄ fun other => absurd isFresh other
      · simp only [mt OrderedSet.contains_iff.mp isFresh]
        refine (fetching_meets inside₄ (View.Shows.stable _ new grows₄ shows)
          (grows₄.place (grows₃.place (grows₂.place (grows₁.place located)))) named
          (closed object allowed)).mono ?_
        exact fun _ _ _ _ met _ => met
    · intro _ last grows₄ _ part
      have later := grows₃.trans grows₄
      refine .orFail written (.both (fun _ _ met => met) (.orFail found ?_))
      refine .of_reads (frame.fetching_degree key place) (reads.stable fresh (grows₂.trans later))
        (readsAll.stable all grows₄) (fun id member object named => ?_) part
      have named := (Names.stable _ _ _ grows₂ reads.names).named_before member later named
      exact Settles.stable _ later (fetched id member object named)

end Load

/-! ## Calls -/

theorem observed_closed {declared : Variable} {point : Option PointId} {sources : List Source}
    {body : HeapObject → Demand} (found : frame.sources? declared point = some sources)
    (closed : frame.observing declared point body known ⊆ bound) :
    ∀ object ∈ shown sources known, body object known ⊆ bound := by
  rw [observing, found] at closed
  exact fun object seen fact demanded => closed (.inl ⟨object, seen, demanded⟩)

section Call

variable {statement : Statement} {call : Call}

private theorem calling_settles (pure : frame.abstraction.policy.IsPure)
    (inside : Inside frame.subscriber bound state) (shows : (View.full).Shows state.graph known)
    (closed : frame.calling statement call bound ⊆ bound) :
    Meets frame.subscriber bound (frame.evaluateCall statement call .full) state fun _ =>
      Settles frame.subscriber .full known (frame.calling statement call) := by
  unfold evaluateCall calling
  unfold calling at closed
  generalize call.receiver = receiver at closed ⊢
  cases receiver with
  | none => exact linkingMethod_meets pure inside shows trivial closed
  | some receiver =>
      obtain ⟨looking, closed⟩ := both_closed closed
      refine read_bind pure inside shows looking ?_
      intro sources found _ ids after grows inside' reads
      refine linking_bind pure inside' (View.Shows.stable .full known grows shows) reads.names
        closed (fun declared => observed_closed found) ?_
      intro declared isDeclared last grows' inside'' linked
      have reads := reads.stable ids grows'
      refine Meets.pure inside'' (.both (.orFail found ?_) (.orFail isDeclared (.orFail found ?_)))
      · exact .reading reads.looked fun _ _ => .nothing
      · exact .reading reads.looked linked

private theorem calling_catchesUp (pure : frame.abstraction.policy.IsPure) {old new : Set Fact}
    {growth : Delta} (inside : Inside frame.subscriber bound state)
    (shows : (View.delta growth).Shows state.graph new)
    (showsAll : (View.full).Shows state.graph (old ∪ new))
    (closed : frame.calling statement call bound ⊆ bound) :
    Meets frame.subscriber bound (frame.evaluateCall statement call (.delta growth)) state
      fun _ => CatchesUp frame.subscriber old new (frame.calling statement call) := by
  unfold evaluateCall calling
  unfold calling at closed
  generalize call.receiver = receiver at closed ⊢
  cases receiver with
  | none =>
      refine (linkingMethod_meets pure inside shows
        (show Receives state.graph none none from trivial) closed).mono ?_
      exact fun _ _ _ _ => .of_settles (frame.linkingMethod_degree _ _ _ _)
  | some receiver =>
      obtain ⟨looking, closed⟩ := both_closed closed
      refine read_bind pure inside shows looking ?_
      intro sources found _ fresh after grows inside' reads
      have shows := View.Shows.stable _ new grows shows
      have showsAll := View.Shows.stable _ (old ∪ new) grows showsAll
      refine linking_bind pure inside' showsAll reads.names.listed closed
        (fun declared => observed_closed found) ?_
      intro declared isDeclared after₁ grows₁ inside₁ whole
      have shows := View.Shows.stable _ new grows₁ shows
      have showsAll := View.Shows.stable _ (old ∪ new) grows₁ showsAll
      refine read_bind pure inside₁ showsAll looking ?_
      intro sources' found' _ everything after₂ grows₂ inside₂ readsAll
      obtain rfl := Option.some.inj (found.symm.trans found')
      have shows := View.Shows.stable _ new grows₂ shows
      rw [isDeclared] at closed
      refine (linking_meets pure isDeclared inside₂ shows (readsAll.names.without fresh)
        (observed_closed found closed)).mono ?_
      intro _ last grows₃ _ part
      have later := grows₁.trans (grows₂.trans grows₃)
      refine .both ?_ (.orFail isDeclared (.orFail found ?_))
      · refine .orFail found (.of_settles (.reading fun _ => .nothing)
          (.reading (reads.stable fresh later).looked fun _ _ => .nothing))
      · refine .of_reads (frame.linking_degree statement call declared)
          (reads.stable fresh later) (readsAll.stable everything grows₃)
          (fun id member object named => ?_) (fun id member object named other => ?_)
        · have named := reads.names.named_before member later named
          exact Settles.stable _ (grows₂.trans grows₃) (whole object ⟨id, member, named⟩)
        · have named := readsAll.names.named_before member grows₃ named
          exact part object ⟨id, member, named, other⟩

end Call

/-! ## Stores -/

section Store

variable {point : Option PointId} {base source : Variable} {key : FieldKey}

private theorem storeOne_meets {id : ObjectId} {object : HeapObject} {values : IdSet}
    {given allowed : Set HeapObject} (inside : Inside frame.subscriber bound state)
    (named : state.graph.object? id = some object) (names : Names state.graph values given allowed)
    (nonempty : allowed.Nonempty)
    (closed : ∀ value ∈ allowed, frame.putting key object value bound ⊆ bound)
    (known : Set Fact) :
    Meets frame.subscriber bound
      (do
        if ← frame.holdsField id key then
          let node ← frame.fieldNode id key
          let type ← frame.fieldType id key
          grow (Graph.addEdgesFiltered frame.hierarchy node values ⟨type, []⟩))
      state fun _ after => ∀ value ∈ given,
        frame.putting key object value known ⊆ after.graph.facts frame.subscriber := by
  obtain ⟨first, isAllowed⟩ := nonempty
  refine .bind_congr (holdsField_run frame key named) ?_
  refine inRange_bind (closed first isAllowed) ?_
  intro holds answered _
  have opened : ∀ value facts, frame.putting key object value facts =
      (if holds then orFail (frame.slotType? object key) fun type =>
        both (fixed {.node (.field object key type)})
          (frame.moving (.field object key type) (some ⟨type, []⟩) value)
      else nothing) facts := by
    intro value facts
    rw [putting, provided, answered]
    rfl
  simp only [opened] at closed ⊢
  cases holds with
  | false => exact .pure inside fun _ _ => Set.empty_subset _
  | true =>
      simp only [if_true] at closed ⊢
      cases typed : frame.slotType? object key with
      | none =>
          rw [typed] at closed
          unfold fieldNode
          rw [bind_assoc]
          refine .bind_congr (fieldType_run frame key named) ?_
          exact .bind_inRange (fun _ => closed first isAllowed rfl) (by simp [typed])
      | some type =>
          rw [typed] at closed
          have slotted : frame.slot? object key = some (.field object key type) := by
            simp [slot?, typed]
          have located : orFail (frame.slot? object key) (fun place => fixed {.node place}) bound ⊆
              bound := by
            rw [slotted]
            exact (both_closed (closed first isAllowed)).1
          refine fieldNode_bind inside named located (fun _ => rfl) ?_
          intro place found _ node after grows inside' located
          obtain rfl := Option.some.inj (slotted.symm.trans found)
          refine .bind_congr (fieldType_run frame key (grows.object named)) ?_
          rw [typed]
          refine (addEdgesFiltered_meets inside' located (Names.stable _ _ _ grows names)
            (fun value isAllowed => (both_closed (closed value isAllowed)).2) known).mono ?_
          intro _ last grows' _ moved value isGiven
          refine Set.union_subset ?_ (moved value isGiven)
          exact Set.singleton_subset_iff.mpr ⟨node, grows'.place located⟩

private theorem storeInto_meets {bases values : IdSet} {least most given allowed : Set HeapObject}
    (inside : Inside frame.subscriber bound state) (names : Names state.graph bases least most)
    (valueNames : Names state.graph values given allowed)
    (closed : ∀ object ∈ most, ∀ value ∈ allowed,
      frame.putting key object value bound ⊆ bound) (known : Set Fact) :
    Meets frame.subscriber bound (frame.storeInto key bases values) state fun _ after =>
      ∀ object ∈ least, ∀ value ∈ given,
        frame.putting key object value known ⊆ after.graph.facts frame.subscriber := by
  unfold storeInto
  split
  · next isEmpty =>
      refine .pure inside fun object _ value isGiven => ?_
      obtain ⟨id, member, _⟩ := valueNames.complete value isGiven
      exact absurd member (OrderedSet.isEmpty_iff.mp isEmpty id)
  · next nonempty =>
      rw [OrderedSet.isEmpty_iff] at nonempty
      push Not at nonempty
      obtain ⟨first, isFirst⟩ := nonempty
      obtain ⟨value, isAllowed, _⟩ := valueNames.sound first isFirst
      refine (Meets.forEach (fun _ object after => ∀ value ∈ given,
        frame.putting key object value known ⊆ after.graph.facts frame.subscriber) ?_ inside names
        ?_).mono ?_
      · exact fun _ object after last grows met value isGiven =>
          (met value isGiven).trans (grows.facts _)
      · intro id _ object isBase after grows inside' named
        exact storeOne_meets inside' named (Names.stable _ _ _ grows valueNames)
          ⟨value, isAllowed⟩ (closed object isBase) known
      · intro _ last grows _ met object isBase
        obtain ⟨id, member, named⟩ := names.complete object isBase
        exact met id member object (grows.object named)

private theorem storing_bind {β : Type} {goal : β → EvalState → Prop}
    (pure : frame.abstraction.policy.IsPure) {next : IdSet → IdSet → Eval β}
    (inside : Inside frame.subscriber bound state) (shows : view.Shows state.graph known)
    (closed : frame.storing point base key source bound ⊆ bound)
    (rest : ∀ baseSources sources, frame.sources? base point = some baseSources →
      frame.sources? source point = some sources →
      (∀ object ∈ shown baseSources bound, ∀ value ∈ shown sources bound,
        frame.putting key object value bound ⊆ bound) →
      ∀ bases values after, Grows frame.subscriber state after →
        Inside frame.subscriber bound after →
        Reads frame.subscriber bound view baseSources known bases after →
        Reads frame.subscriber bound view sources known values after →
        Meets frame.subscriber bound (next bases values) after goal) :
    Meets frame.subscriber bound
      (do
        let bases ← frame.read view base point
        let values ← frame.read view source point
        next bases values)
      state goal := by
  obtain ⟨looking, observes⟩ := both_closed closed
  refine read_bind pure inside shows observes ?_
  intro baseSources foundBase stores bases after grows inside' readsBases
  refine read_bind pure inside' (View.Shows.stable _ known grows shows) looking ?_
  intro sources found _ values after₁ grows₁ inside₁ reads
  refine rest baseSources sources foundBase found ?_ bases values after₁ (grows.trans grows₁)
    inside₁ (readsBases.stable bases grows₁) reads
  exact fun object isBase => observed_closed found (stores object isBase)

private theorem storing_settles (pure : frame.abstraction.policy.IsPure)
    (inside : Inside frame.subscriber bound state) (shows : (View.full).Shows state.graph known)
    (closed : frame.storing point base key source bound ⊆ bound) :
    Meets frame.subscriber bound (frame.evaluateStore .full point base key source) state fun _ =>
      Settles frame.subscriber .full known (frame.storing point base key source) := by
  unfold evaluateStore
  refine storing_bind pure inside shows closed ?_
  intro baseSources sources foundBase found closed bases values after _ inside' readsBases reads
  refine (storeInto_meets inside' readsBases.names reads.names closed known).mono ?_
  intro _ last grows _ stored
  have looked := (reads.stable values grows).looked
  refine .both (.orFail found (.reading looked fun _ _ => .nothing)) (.orFail foundBase ?_)
  refine .reading (readsBases.stable bases grows).looked fun object isBase => ?_
  exact .orFail found (.reading looked (stored object isBase))

private theorem storing_catchesUp (pure : frame.abstraction.policy.IsPure) {old new : Set Fact}
    {growth : Delta} (inside : Inside frame.subscriber bound state)
    (shows : (View.delta growth).Shows state.graph new)
    (showsAll : (View.full).Shows state.graph (old ∪ new))
    (closed : frame.storing point base key source bound ⊆ bound) :
    Meets frame.subscriber bound (frame.evaluateStore (.delta growth) point base key source) state
      fun _ => CatchesUp frame.subscriber old new (frame.storing point base key source) := by
  unfold evaluateStore
  refine storing_bind pure inside shows closed ?_
  intro baseSources sources foundBase found puts bases values after grows inside' readsBases reads
  have showsAll := View.Shows.stable _ (old ∪ new) grows showsAll
  refine storing_bind pure inside' showsAll closed ?_
  intro baseSources' sources' foundBase' found' _ allBases allValues after₁ grows₁ inside₁
    readsAllBases readsAll
  obtain rfl := Option.some.inj (foundBase.symm.trans foundBase')
  obtain rfl := Option.some.inj (found.symm.trans found')
  have readsBases := readsBases.stable bases grows₁
  have reads := reads.stable values grows₁
  -- all values go into the new objects, then the new values into all objects
  refine (storeInto_meets inside₁ readsBases.names readsAll.names puts (old ∪ new)).bind ?_
  intro _ after₂ grows₂ inside₂ fresh
  refine (storeInto_meets inside₂ (Names.stable _ _ _ grows₂ readsAllBases.names)
    (Names.stable _ _ _ grows₂ reads.names) puts (old ∪ new)).mono ?_
  intro _ last grows₃ _ part total said met
  have later := grows₂.trans grows₃
  have looked := (reads.stable values later).looked
  have lookedBases := (readsBases.stable bases later).looked
  unfold storing observing at met ⊢
  rw [found, foundBase] at met ⊢
  obtain ⟨metValues, metBases⟩ := Set.union_subset_iff.mp met
  have lookedAll : looks sources (old ∪ new) ⊆ total := by
    intro fact demanded
    rcases looks_union demanded with before | now
    · exact metValues (.inr before)
    · exact said (looked now)
  rintro fact ((⟨_, _, none⟩ | demanded) |
    ⟨object, isBase, ⟨value, isValue, demanded⟩ | demanded⟩ | demanded)
  · exact none.elim
  · exact lookedAll demanded
  · rw [shown_union] at isBase
    rcases isBase with isBase | isBase
    · rw [shown_union] at isValue
      rcases isValue with isValue | isValue
      · have constant := (frame.putting_degree key object value).constant.1
        exact metBases (.inl ⟨object, isBase, .inl ⟨value, isValue, constant _ _ demanded⟩⟩)
      · exact said (part object (shown_union.symm ▸ .inl isBase) value isValue demanded)
    · exact said (grows₃.facts _ (fresh object isBase value isValue demanded))
  · exact lookedAll demanded
  · rcases looks_union demanded with before | now
    · exact metBases (.inr before)
    · exact said (lookedBases now)

end Store

/-! ## Exceptions -/

private theorem raising_meets (view : View) (known : Set Fact) {raised : IdSet}
    {least most : Set HeapObject} {summary : Variable}
    {caught : List TypeId} {handlers : List Handler}
    (inside : Inside frame.subscriber bound state) (names : Names state.graph raised least most)
    (nonempty : most.Nonempty)
    (closed : ∀ object ∈ most, frame.raising summary object caught handlers bound ⊆ bound) :
    Meets frame.subscriber bound (frame.raiseTo raised summary caught handlers) state
      fun _ after => ∀ object ∈ least, Settles frame.subscriber view known
        (frame.raising summary object caught handlers) after := by
  obtain ⟨first, isFirst⟩ := nonempty
  induction handlers generalizing state caught with
  | nil =>
      unfold raiseTo
      refine target_bind inside (closed first isFirst) (fun _ => .inl rfl) ?_
      intro place written _ node after grows inside' located
      have names := Names.stable _ _ _ grows names
      have moves : ∀ object ∈ most, frame.moving place
          (some ⟨TypeTable.throwableType, caught⟩) object bound ⊆ bound := by
        intro object isRaised
        have closed := closed object isRaised
        rw [raising, written] at closed
        exact (both_closed closed).2
      refine (addEdgesFiltered_moving view known inside' located names moves).mono ?_
      intro _ last grows' _ moved object wanted
      refine .orFail written (.both (.fixed ?_) (moved object wanted))
      exact Set.singleton_subset_iff.mpr ⟨node, grows'.place located⟩
  | cons handler handlers ih =>
      unfold raiseTo
      refine target_bind inside (closed first isFirst) (fun _ => .inl rfl) ?_
      intro place written _ node after grows inside' located
      have names := Names.stable _ _ _ grows names
      have split : ∀ object ∈ most,
          frame.moving place (some ⟨handler.type, caught⟩) object bound ⊆ bound ∧
          frame.raising summary object (caught ++ [handler.type]) handlers bound ⊆ bound := by
        intro object isRaised
        have closed := closed object isRaised
        rw [raising, written] at closed
        exact both_closed (both_closed closed).2
      refine (addEdgesFiltered_moving view known inside' located names fun object isRaised =>
        (split object isRaised).1).bind ?_
      intro _ after₁ grows₁ inside₁ moved
      refine (ih inside₁ (Names.stable _ _ _ grows₁ names)
        fun object isRaised => (split object isRaised).2).mono ?_
      intro _ last grows₂ _ rest object wanted
      refine .orFail written (.both (.fixed ?_) (.both ?_ (rest object wanted)))
      · exact Set.singleton_subset_iff.mpr ⟨node, grows₂.place (grows₁.place located)⟩
      · exact Settles.stable _ grows₂ (moved object wanted)

/-! ## Statements -/

private theorem new_meets (pure : frame.abstraction.policy.IsPure) {statement : Statement}
    {target : Variable} {type : TypeId} (action : statement.action = .new target type)
    (inside : Inside frame.subscriber bound state) (shows : view.Shows state.graph known)
    (closed : frame.demand statement bound ⊆ bound) :
    Meets frame.subscriber bound (frame.evaluate statement view) state fun _ =>
      Settles frame.subscriber view known (frame.demand statement) := by
  unfold evaluate demand
  unfold demand at closed
  rw [action] at closed ⊢
  refine record_bind pure inside closed ?_
  intro object recorded closed id after₁ grows₁ inside₁ named
  refine target_bind inside₁ closed (fun _ => .inl (.inl rfl)) ?_
  intro place written closed node after₂ grows₂ inside₂ located
  obtain ⟨placed, closed⟩ := both_closed closed
  refine (addEdge_meets inside₂ located (grows₂.object named) (placed (.inr rfl))).bind ?_
  intro _ after₃ grows₃ inside₃ edge
  refine inRange_bind closed ?_
  intro initializers found closed
  obtain ⟨triggered, folded⟩ := both_closed closed
  refine (addInitializers_meets inside₃ triggered known).bind ?_
  intro _ after₄ grows₄ inside₄ triggered
  have named := grows₄.object (grows₃.object (grows₂.object named))
  have grows := ((grows₁.trans grows₂).trans grows₃).trans grows₄
  refine (folding_meets inside₄ (View.Shows.stable _ known grows shows) named folded).mono ?_
  intro _ last grows₅ _ folded
  have later := grows₄.trans grows₅
  refine .orFail recorded (.both (.fixed ?_) (.orFail written (.both (.fixed ?_)
    (.orFail found (.both (.fixed ?_) folded)))))
  · exact Set.singleton_subset_iff.mpr ⟨id, grows₅.object named⟩
  · refine Set.insert_subset ⟨node, later.place (grows₃.place located)⟩ ?_
    exact Set.singleton_subset_iff.mpr (later.facts _ edge)
  · exact triggered.trans (grows₅.facts _)

private theorem newArray_meets (pure : frame.abstraction.policy.IsPure) {statement : Statement}
    {target : Variable} {type : TypeId} {dims : Nat}
    (action : statement.action = .newArray target type dims)
    (inside : Inside frame.subscriber bound state) (shows : view.Shows state.graph known)
    (closed : frame.demand statement bound ⊆ bound) :
    Meets frame.subscriber bound (frame.evaluate statement view) state fun _ =>
      Settles frame.subscriber view known (frame.demand statement) := by
  unfold evaluate demand
  unfold demand at closed
  rw [action] at closed ⊢
  refine record_bind pure inside closed ?_
  intro outer recorded closed id after₁ grows₁ inside₁ named
  refine target_bind inside₁ closed (fun _ => .inl (.inl rfl)) ?_
  intro place written closed node after₂ grows₂ inside₂ located
  obtain ⟨placed, closed⟩ := both_closed closed
  obtain ⟨folded, nested⟩ := both_closed closed
  refine (addEdge_meets inside₂ located (grows₂.object named) (placed (.inr rfl))).bind ?_
  intro _ after₃ grows₃ inside₃ edge
  have named := grows₃.object (grows₂.object named)
  have grows := (grows₁.trans grows₂).trans grows₃
  refine (folding_meets inside₃ (View.Shows.stable _ known grows shows) named folded).bind ?_
  intro _ after₄ grows₄ inside₄ folded
  have shows := View.Shows.stable _ known (grows.trans grows₄) shows
  refine (nesting_meets pure inside₄ shows (grows₄.object named) nested).mono ?_
  intro _ last grows₅ _ nested
  have later := grows₄.trans grows₅
  refine .orFail recorded (.both (.fixed ?_) (.orFail written (.both (.fixed ?_)
    (.both (Settles.stable _ grows₅ folded) nested))))
  · exact Set.singleton_subset_iff.mpr ⟨id, later.object named⟩
  · refine Set.insert_subset ⟨node, later.place (grows₃.place located)⟩ ?_
    exact Set.singleton_subset_iff.mpr (later.facts _ edge)

private theorem phi_meets (pure : frame.abstraction.policy.IsPure) {statement : Statement}
    {target : Variable} {sources : List Variable} (action : statement.action = .phi target sources)
    (inside : Inside frame.subscriber bound state) (shows : view.Shows state.graph known)
    (closed : frame.demand statement bound ⊆ bound) :
    Meets frame.subscriber bound (frame.evaluate statement view) state fun _ =>
      Settles frame.subscriber view known (frame.demand statement) := by
  unfold evaluate demand
  unfold demand at closed
  rw [action] at closed ⊢
  refine target_bind inside closed (fun _ => .inl rfl) ?_
  intro place written closed node after grows inside' located
  have observes := (both_closed closed).2
  refine (Meets.forM (fun source => Settles frame.subscriber view known
    (frame.observing source statement.point (frame.moving place none)))
    (fun _ => Settles.stable _) inside' ?_).mono ?_
  · intro source member after₁ grows₁ inside₁
    have closed : _ ⊆ bound := fun fact demanded => observes ⟨source, member, demanded⟩
    have shows := View.Shows.stable _ known (grows.trans grows₁) shows
    refine read_bind pure inside₁ shows closed ?_
    intro from_ found moves ids after₂ grows₂ inside₂ reads
    have located := grows₂.place (grows₁.place located)
    refine (addEdges_moving view known inside₂ located reads.names moves).mono ?_
    intro _ last grows₃ _ moved
    exact .orFail found (.reading (reads.stable ids grows₃).looked moved)
  · intro _ last grows₁ _ met
    refine .orFail written (.both (.fixed ?_) (.each met))
    exact Set.singleton_subset_iff.mpr ⟨node, grows₁.place located⟩

private theorem raise_meets (pure : frame.abstraction.policy.IsPure) {statement : Statement}
    {source summary : Variable} {handlers : List Handler}
    (action : statement.action = .raise source handlers summary)
    (inside : Inside frame.subscriber bound state) (shows : view.Shows state.graph known)
    (closed : frame.demand statement bound ⊆ bound) :
    Meets frame.subscriber bound (frame.evaluate statement view) state fun _ =>
      Settles frame.subscriber view known (frame.demand statement) := by
  unfold evaluate demand
  unfold demand at closed
  rw [action] at closed ⊢
  refine read_bind pure inside shows closed ?_
  intro sources found closed ids after grows inside' reads
  split
  · next isEmpty =>
      refine .pure inside' (.orFail found (.reading reads.looked fun object seen => ?_))
      obtain ⟨id, member, _⟩ := reads.names.complete object seen
      exact absurd member (OrderedSet.isEmpty_iff.mp isEmpty id)
  · next nonempty =>
      rw [OrderedSet.isEmpty_iff] at nonempty
      push Not at nonempty
      obtain ⟨first, isFirst⟩ := nonempty
      obtain ⟨object, seen, _⟩ := reads.names.sound first isFirst
      refine (raising_meets view known inside' reads.names ⟨object, seen⟩ closed).mono ?_
      intro _ last grows' _ raised
      exact .orFail found (.reading (reads.stable ids grows').looked raised)

theorem linear_settles (pure : frame.abstraction.policy.IsPure) {statement : Statement}
    (linear : statement.action.IsLinear) (inside : Inside frame.subscriber bound state)
    (shows : view.Shows state.graph known) (closed : frame.demand statement bound ⊆ bound) :
    Meets frame.subscriber bound (frame.evaluate statement view) state fun _ =>
      Settles frame.subscriber view known (frame.demand statement) := by
  cases action : statement.action with
  | new target type => exact new_meets pure action inside shows closed
  | newArray target type dims => exact newArray_meets pure action inside shows closed
  | phi target sources => exact phi_meets pure action inside shows closed
  | raise source handlers summary => exact raise_meets pure action inside shows closed
  | copy target source cast =>
      unfold evaluate demand
      unfold demand at closed
      rw [action] at closed ⊢
      cases cast with
      | none => exact assigning_meets pure inside shows (addEdges_moving view known) closed
      | some type =>
          exact assigning_meets pure inside shows (addEdgesFiltered_moving view known) closed
  | «return» source summary =>
      unfold evaluate demand
      unfold demand at closed
      rw [action] at closed ⊢
      exact assigning_meets pure inside shows (addEdges_moving view known) closed
  | static access declared field initializers =>
      unfold evaluate demand
      unfold demand at closed
      rw [action] at closed ⊢
      obtain ⟨triggered, closed⟩ := both_closed closed
      refine (addInitializers_meets inside triggered known).bind ?_
      intro _ after grows inside' triggered
      have shows := View.Shows.stable _ known grows shows
      have settled : ∀ {last rest}, Grows frame.subscriber after last →
          Settles frame.subscriber view known rest last →
          Settles frame.subscriber view known (both (triggering initializers) rest) last :=
        fun grows' rest => .both (.fixed (triggered.trans (grows'.facts _))) rest
      cases access with
      | get =>
          exact (assigning_meets pure inside' shows (addEdges_moving view known) closed).mono
            fun _ _ grows' _ => settled grows'
      | put =>
          exact (assigning_meets pure inside' shows (addEdges_moving view known) closed).mono
            fun _ _ grows' _ => settled grows'
  | classInit initializers =>
      unfold evaluate demand
      unfold demand at closed
      rw [action] at closed ⊢
      exact (addInitializers_meets inside closed known).mono fun _ _ _ _ => .fixed
  | load target base key => rw [action] at linear; exact linear.elim
  | store base key source => rw [action] at linear; exact linear.elim
  | call call => rw [action] at linear; exact linear.elim

/-- A full evaluation brings about all that a statement demands of what was known. -/
theorem evaluate_settles (pure : frame.abstraction.policy.IsPure) {statement : Statement}
    (inside : Inside frame.subscriber bound state) (shows : (View.full).Shows state.graph known)
    (closed : frame.demand statement bound ⊆ bound) :
    Meets frame.subscriber bound (frame.evaluate statement .full) state fun _ =>
      Settles frame.subscriber .full known (frame.demand statement) := by
  by_cases linear : statement.action.IsLinear
  · exact linear_settles pure linear inside shows closed
  · unfold evaluate demand
    unfold demand at closed
    generalize statement.action = action at closed linear ⊢
    cases action with
    | load target base key => exact loading_settles pure inside shows closed
    | store base key source => exact storing_settles pure inside shows closed
    | call call => exact calling_settles pure inside shows closed
    | _ => exact absurd trivial linear

/-- An evaluation of a delta view makes up for what has become known since the demand was met. -/
theorem evaluate_catchesUp (pure : frame.abstraction.policy.IsPure) {statement : Statement}
    {old new : Set Fact} {growth : Delta} (inside : Inside frame.subscriber bound state)
    (shows : (View.delta growth).Shows state.graph new)
    (showsAll : (View.full).Shows state.graph (old ∪ new))
    (closed : frame.demand statement bound ⊆ bound) :
    Meets frame.subscriber bound (frame.evaluate statement (.delta growth)) state fun _ =>
      CatchesUp frame.subscriber old new (frame.demand statement) := by
  by_cases linear : statement.action.IsLinear
  · exact (linear_settles pure linear inside shows closed).mono fun _ _ _ _ =>
      .of_settles (frame.demand_linear linear)
  · unfold evaluate demand
    unfold demand at closed
    generalize statement.action = action at closed linear ⊢
    cases action with
    | load target base key => exact loading_catchesUp pure inside shows showsAll closed
    | store base key source => exact storing_catchesUp pure inside shows showsAll closed
    | call call => exact calling_catchesUp pure inside shows showsAll closed
    | _ => exact absurd trivial linear

end Frame

end ObjectFlow
