import ObjectFlow.Proofs.Evaluation.Reading

/-!
# The pieces of statements

Each piece of an evaluation meets the demand it was written for: variables
flow into variables, slots into slots, allocations fold into their summaries,
calls connect callers to callees.  All of these are of degree 1, and the same
evaluation serves the full view and a delta view.
-/

namespace ObjectFlow.Frame

open Effect Eval Demand

variable {β : Type} {frame : Frame} {bound known : Set Fact} {state : EvalState} {view : View}
variable {goal : β → EvalState → Prop}

/-! ## Moving objects -/

section Moving

variable {node : NodeId} {place : Place} {ids : IdSet} {least most : Set HeapObject}

theorem addEdges_moving (view : View) (known : Set Fact)
    (inside : Inside frame.subscriber bound state)
    (located : state.graph.place? node = some place) (names : Names state.graph ids least most)
    (closed : ∀ object ∈ most, frame.moving place none object bound ⊆ bound) :
    Meets frame.subscriber bound (grow (Graph.addEdges node ids)) state fun _ after =>
      ∀ object ∈ least, Settles frame.subscriber view known (frame.moving place none object)
        after := by
  refine (addEdges_meets inside located names
    fun object allowed => closed object allowed rfl).mono ?_
  intro _ after _ _ edges object wanted
  exact Settles.fixed (Set.singleton_subset_iff.mpr (edges object wanted))

theorem addEdgesFiltered_moving (view : View) (known : Set Fact) {filter : TypeFilter}
    (inside : Inside frame.subscriber bound state)
    (located : state.graph.place? node = some place) (names : Names state.graph ids least most)
    (closed : ∀ object ∈ most, frame.moving place (some filter) object bound ⊆ bound) :
    Meets frame.subscriber bound (grow (Graph.addEdgesFiltered frame.hierarchy node ids filter))
      state fun _ after => ∀ object ∈ least,
        Settles frame.subscriber view known (frame.moving place (some filter) object) after := by
  refine (addEdgesFiltered_meets inside located names closed known).mono ?_
  exact fun _ after _ _ edges object wanted =>
    (view.owed_subset _).trans (edges object wanted)

theorem assigning_meets (pure : frame.abstraction.policy.IsPure) {source target : Variable}
    {point targetPoint : Option PointId} {filter : Option TypeFilter}
    {move : NodeId → IdSet → Eval Unit} (inside : Inside frame.subscriber bound state)
    (shows : view.Shows state.graph known)
    (moves : ∀ {node place ids least most after}, Inside frame.subscriber bound after →
      after.graph.place? node = some place → Names after.graph ids least most →
      (∀ object ∈ most, frame.moving place filter object bound ⊆ bound) →
      Meets frame.subscriber bound (move node ids) after fun _ last => ∀ object ∈ least,
        Settles frame.subscriber view known (frame.moving place filter object) last)
    (closed : frame.assigning source point target targetPoint filter bound ⊆ bound) :
    Meets frame.subscriber bound
      (do
        let objects ← frame.read view source point
        let node ← frame.target target targetPoint
        move node objects)
      state fun _ => Settles frame.subscriber view known
        (frame.assigning source point target targetPoint filter) := by
  obtain ⟨looking, writing⟩ := both_closed closed
  refine read_bind pure inside shows looking ?_
  intro sources found _ ids after grows inside' reads
  refine target_bind inside' writing (fun _ => .inl rfl) ?_
  intro place written closed node later grows' inside'' located
  have moved := (both_closed closed).2
  unfold observing at moved
  rw [found] at moved
  have reads := reads.stable ids grows'
  refine (moves inside'' located reads.names fun object seen fact demanded =>
    moved (.inl ⟨object, seen, demanded⟩)).mono ?_
  intro _ last grows'' _ moved
  have reads := reads.stable ids grows''
  refine .both (.orFail found (.reading reads.looked fun _ _ => .nothing)) (.orFail written ?_)
  refine .both (.fixed (Set.singleton_subset_iff.mpr ⟨node, grows''.place located⟩)) ?_
  exact .orFail found (.reading reads.looked moved)

theorem returning_meets {target : Variable} {point : Option PointId}
    (inside : Inside frame.subscriber bound state) (shows : view.Shows state.graph known)
    (located : state.graph.place? node = some place)
    (closed : frame.returning place target point bound ⊆ bound) :
    Meets frame.subscriber bound
      (do
        let objects ← frame.view view node
        let goal ← frame.target target point
        grow (Graph.addEdges goal objects))
      state fun _ => Settles frame.subscriber view known (frame.returning place target point) := by
  obtain ⟨looking, writing⟩ := both_closed closed
  refine (direct_meets inside shows located looking).bind ?_
  intro ids after grows inside' reads
  refine target_bind inside' writing (fun _ => .inl rfl) ?_
  intro goal written closed goalNode later grows' inside'' located'
  have moved := (both_closed closed).2
  have reads := reads.stable ids grows'
  refine (addEdges_meets inside'' located' reads.names fun object seen =>
    moved (.inl ⟨object, seen, rfl⟩)).mono ?_
  intro _ last grows'' _ edges
  have reads := reads.stable ids grows''
  refine .both reads.looked (.orFail written ?_)
  refine .both (.fixed (Set.singleton_subset_iff.mpr ⟨goalNode, grows''.place located'⟩)) ?_
  exact .reading reads.looked fun object seen =>
    .fixed (Set.singleton_subset_iff.mpr (edges object seen))

end Moving

/-! ## Slots -/

section Slots

variable {id : ObjectId} {object : HeapObject} {key : FieldKey}

theorem objectType_run (named : state.graph.object? id = some object) :
    objectType id state = (.ok object.type, state) := by
  have type : state.graph.objectType? id = some object.type := by simp [Graph.objectType?, named]
  simp only [objectType, run_bind, run_get, type, run_inRange_some]

theorem fieldType_run (frame : Frame) (key : FieldKey)
    (named : state.graph.object? id = some object) :
    frame.fieldType id key state = (inRange (frame.slotType? object key) : Eval TypeId) state := by
  cases key with
  | named field =>
      cases found : frame.hierarchy.field? field <;>
        simp only [fieldType, slotType?, found, run_bind, run_inRange_some, run_inRange_none,
          run_pure, Option.map_some, Option.map_none]
  | arrayContents =>
      cases found : frame.hierarchy.elementType? object.type <;>
        simp only [fieldType, slotType?, objectType_run named, found, run_bind, run_inRange_some,
          run_inRange_none, run_pure, Option.map_some, Option.map_none]

theorem holdsField_run (frame : Frame) (key : FieldKey)
    (named : state.graph.object? id = some object) :
    frame.holdsField id key state = (inRange (frame.hasSlot? object key) : Eval Bool) state := by
  cases key with
  | named field =>
      cases found : frame.hierarchy.field? field <;>
        simp only [holdsField, hasSlot?, objectType_run named, found, run_bind, run_inRange_some,
          run_inRange_none, Option.bind_some, Option.bind_none]
  | arrayContents => simp only [holdsField, hasSlot?, objectType_run named, run_bind]

theorem referenceFields_run (frame : Frame) (named : state.graph.object? id = some object) :
    frame.referenceFields id state =
      (inRange (frame.slots? object) : Eval (List FieldKey)) state := by
  simp only [referenceFields, slots?, run_bind, objectType_run named]
  cases frame.hierarchy.kind? object.type with
  | none => rfl
  | some kind =>
      simp only [run_inRange_some, Option.bind_some]
      cases kind with
      | array element =>
          simp only [run_bind]
          cases frame.hierarchy.isReference? element with
          | none => rfl
          | some holds => cases holds <;> rfl
      | declared info =>
          simp only [run_bind]
          cases frame.hierarchy.instanceFields? object.type <;> rfl
      | primitive name =>
          simp only [run_bind]
          cases frame.hierarchy.instanceFields? object.type <;> rfl

theorem fieldNode_bind {body : Place → Demand} {next : NodeId → Eval β}
    (inside : Inside frame.subscriber bound state)
    (named : state.graph.object? id = some object)
    (closed : orFail (frame.slot? object key) body bound ⊆ bound)
    (includes : ∀ place, .node place ∈ body place bound)
    (rest : ∀ place, frame.slot? object key = some place → body place bound ⊆ bound →
      ∀ node after, Grows frame.subscriber state after → Inside frame.subscriber bound after →
        after.graph.place? node = some place →
        Meets frame.subscriber bound (next node) after goal) :
    Meets frame.subscriber bound (frame.fieldNode id key >>= next) state goal := by
  unfold fieldNode
  rw [bind_assoc]
  refine .bind_congr (fieldType_run frame key named) ?_
  rcases orFail_closed closed with ⟨absent, allowed⟩ | ⟨place, found, closed⟩
  · refine .bind_inRange (fun _ => allowed) fun type found => ?_
    simp [slot?, found] at absent
  · obtain ⟨type, typed, rfl⟩ := Option.map_eq_some_iff.mp found
    refine .bind_inRange (by simp [typed]) fun other same => ?_
    obtain rfl := Option.some.inj (typed.symm.trans same)
    have meaning : state.graph.placeOf? (.field id key type) = some (.field object key type) := by
      simp [Graph.placeOf?, named]
    exact (node_meets inside meaning (closed (includes _))).bind (rest _ found closed)

theorem copyFields_meets {target : ObjectId} {copy : HeapObject}
    (inside : Inside frame.subscriber bound state) (shows : view.Shows state.graph known)
    (named : state.graph.object? id = some object)
    (named' : state.graph.object? target = some copy)
    (closed : frame.copying object copy bound ⊆ bound) :
    Meets frame.subscriber bound (frame.copyFields view id target) state fun _ =>
      Settles frame.subscriber view known (frame.copying object copy) := by
  unfold copyFields
  refine .bind_congr (referenceFields_run frame named) ?_
  refine inRange_bind closed ?_
  intro keys listed closed
  refine (Meets.forM (fun key => Settles frame.subscriber view known
    (orFail (frame.slot? object key) fun here => both (fixed {.node here}) <|
      orFail (frame.slot? copy key) fun there => both (fixed {.node there})
        (reading [.direct here] fun object => fixed {.edge there object})))
    (fun _ => Settles.stable _) inside ?_).mono ?_
  · intro key member after grows inside'
    have closed : _ ⊆ bound := fun fact demanded => closed ⟨key, member, demanded⟩
    refine fieldNode_bind inside' (grows.object named) closed (fun _ => .inl rfl) ?_
    intro here foundHere closed source after₁ grows₁ inside₁ located
    have grows₁ := grows.trans grows₁
    refine fieldNode_bind inside₁ (grows₁.object named') (both_closed closed).2
      (fun _ => .inl rfl) ?_
    intro there foundThere closed goal after₂ grows₂ inside₂ located'
    obtain ⟨edges, looking⟩ := Set.union_subset_iff.mp (both_closed closed).2
    have shows := View.Shows.stable view known (grows₁.trans grows₂) shows
    refine (direct_meets inside₂ shows (grows₂.place located) looking).bind ?_
    intro ids after₃ grows₃ inside₃ reads
    refine (addEdges_meets inside₃ (grows₃.place located') reads.names fun object seen =>
      edges ⟨object, seen, rfl⟩).mono ?_
    intro _ last grows₄ _ moved
    have reads := reads.stable ids grows₄
    refine .orFail foundHere (.both (.fixed ?_) (.orFail foundThere (.both (.fixed ?_) ?_)))
    · exact Set.singleton_subset_iff.mpr
        ⟨source, grows₄.place (grows₃.place (grows₂.place located))⟩
    · exact Set.singleton_subset_iff.mpr ⟨goal, grows₄.place (grows₃.place located')⟩
    · exact .reading reads.looked fun object seen =>
        .fixed (Set.singleton_subset_iff.mpr (moved object seen))
  · exact fun _ _ _ _ met => .orFail listed (.each met)

end Slots

/-! ## Allocations -/

theorem record_bind (pure : frame.abstraction.policy.IsPure) {site : AllocationSite}
    {body : HeapObject → Demand} {next : ObjectId → Eval β}
    (inside : Inside frame.subscriber bound state)
    (closed : frame.allocating site body bound ⊆ bound)
    (rest : ∀ object, frame.recorded? site = some object → body object bound ⊆ bound →
      ∀ id after, Grows frame.subscriber state after → Inside frame.subscriber bound after →
        after.graph.object? id = some object →
        Meets frame.subscriber bound (next id) after goal) :
    Meets frame.subscriber bound (frame.record site >>= next) state goal := by
  unfold record describe
  simp only [bind_assoc]
  rcases orFail_closed closed with ⟨absent, allowed⟩ | ⟨object, found, closed⟩
  · refine .bind_inRange (fun _ => allowed) fun origin described => ?_
    simp [recorded?, described] at absent
  · obtain ⟨origin, described, recorded⟩ := Option.map_eq_some_iff.mp found
    refine .bind_inRange (by simp [described]) fun _ _ => ?_
    have asked : ∀ origin, Meets frame.subscriber bound
        (ask (frame.abstraction.record site frame.context origin)) state
        fun answer _ => answer = object := by
      intro origin
      obtain ⟨requests, run⟩ :=
        frame.abstraction.record_run pure site frame.context origin state.requests
      exact .ask inside run fun _ _ => recorded
    refine (asked _).bind ?_
    rintro _ after grows inside' rfl
    obtain ⟨allowed, closed⟩ := both_closed closed
    refine (object_meets inside' (allowed rfl)).bind ?_
    exact fun id last grows' => rest _ found closed id last (grows.trans grows')

theorem folding_meets {id : ObjectId} {object : HeapObject}
    (inside : Inside frame.subscriber bound state) (shows : view.Shows state.graph known)
    (named : state.graph.object? id = some object)
    (closed : frame.folding object bound ⊆ bound) :
    Meets frame.subscriber bound (frame.foldIntoSummary view id) state fun _ =>
      Settles frame.subscriber view known (frame.folding object) := by
  unfold foldIntoSummary
  refine .bind_get (.bind_inRange (by simp [named]) ?_)
  intro _ same
  obtain rfl := Option.some.inj (named.symm.trans same)
  unfold folding at closed ⊢
  cases summarized : frame.abstraction.summaryOf object with
  | none => exact .pure inside .nothing
  | some summary =>
      rw [summarized] at closed
      obtain ⟨allowed, closed⟩ := both_closed closed
      refine (object_meets inside (allowed rfl)).bind ?_
      intro older after grows inside' named'
      refine (copyFields_meets inside' (View.Shows.stable view known grows shows)
        (grows.object named) named' closed).mono ?_
      intro _ last grows' _ copied
      exact .both (.fixed (Set.singleton_subset_iff.mpr ⟨older, grows'.object named'⟩)) copied

theorem nesting_meets (pure : frame.abstraction.policy.IsPure) {statement : Statement}
    {remaining dimension : Nat} {outer : ObjectId} {object : HeapObject} {type : TypeId}
    (inside : Inside frame.subscriber bound state) (shows : view.Shows state.graph known)
    (named : state.graph.object? outer = some object)
    (closed : frame.nesting statement remaining dimension object type bound ⊆ bound) :
    Meets frame.subscriber bound
      (frame.allocateInner statement view remaining dimension outer type) state fun _ =>
      Settles frame.subscriber view known
        (frame.nesting statement remaining dimension object type) := by
  induction remaining generalizing state dimension outer object type with
  | zero => exact .pure inside .nothing
  | succ remaining ih =>
      unfold allocateInner
      refine inRange_bind closed ?_
      intro element hasElement closed
      unfold nesting
      cases element with
      | none => exact .pure inside (.orFail hasElement .nothing)
      | some innerType =>
          refine inRange_bind closed ?_
          intro isArray answered closed
          cases isArray with
          | false => exact .pure inside (.orFail hasElement (.orFail answered .nothing))
          | true =>
              refine record_bind pure inside closed ?_
              intro inner recorded closed innerId after grows inside' named'
              refine fieldNode_bind inside' (grows.object named) closed
                (fun _ => .inl (.inl rfl)) ?_
              intro contents hasSlot closed node after₁ grows₁ inside₁ located
              obtain ⟨stored, rest⟩ := both_closed closed
              obtain ⟨folded, nested⟩ := both_closed rest
              refine (addEdge_meets inside₁ located (grows₁.object named')
                (stored (.inr rfl))).bind ?_
              intro _ after₂ grows₂ inside₂ edge
              have grows₁₂ := (grows.trans grows₁).trans grows₂
              have named₂ := grows₂.object (grows₁.object named')
              refine (folding_meets inside₂ (View.Shows.stable view known grows₁₂ shows) named₂
                folded).bind ?_
              intro _ after₃ grows₃ inside₃ folded
              refine (ih inside₃ (View.Shows.stable view known (grows₁₂.trans grows₃) shows)
                (grows₃.object named₂) nested).mono ?_
              intro _ last grows₄ _ nested
              have later := grows₃.trans grows₄
              refine .orFail hasElement (.orFail answered (.orFail recorded (.both (.fixed ?_)
                (.orFail hasSlot (.both (.fixed ?_) (.both ?_ nested))))))
              · exact Set.singleton_subset_iff.mpr ⟨innerId, later.object named₂⟩
              · refine Set.insert_subset ⟨node, later.place (grows₂.place located)⟩ ?_
                exact Set.singleton_subset_iff.mpr (later.facts _ edge)
              · exact Settles.stable _ grows₄ folded

end ObjectFlow.Frame
