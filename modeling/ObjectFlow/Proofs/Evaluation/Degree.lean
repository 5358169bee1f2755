import ObjectFlow.Proofs.Evaluation.Demand

/-!
# How demands depend on what is known

The degree of a demand bounds how deeply it nests readings.  A demand of
degree 0 does not depend on what is known at all, and one of degree 1 looks at
one known edge at a time, so the demand of a union splits into the demands of
the parts.  Loads, stores and calls are of degree 2: they read nodes that they
find by reading.

Whatever its degree, a demand that is met stays met when nodes grow that the
reader does not watch (`DegreeAtMost.isLocal`).
-/

namespace ObjectFlow

def unwatched (facts : Set Fact) : Set Fact := {fact | fact ∈ facts ∧ ∀ place, fact ≠ .watch place}

theorem unwatched_mono {facts more : Set Fact} (subset : facts ⊆ more) :
    unwatched facts ⊆ unwatched more :=
  fun _ ⟨member, other⟩ => ⟨subset member, other⟩

section Shown

variable {sources : List Source} {known more : Set Fact}

theorem shown_mono
    (edges : ∀ source ∈ sources, ∀ object, .edge source.place object ∈ known →
      .edge source.place object ∈ more) :
    shown sources known ⊆ shown sources more := by
  rintro object ⟨source, member, held, edge, rest⟩
  exact ⟨source, member, held, edges source member held edge, rest⟩

theorem shown_union : shown sources (known ∪ more) = shown sources known ∪ shown sources more := by
  apply Set.Subset.antisymm
  · rintro object ⟨source, member, held, edge | edge, rest⟩
    · exact .inl ⟨source, member, held, edge, rest⟩
    · exact .inr ⟨source, member, held, edge, rest⟩
  · exact Set.union_subset (shown_mono fun _ _ _ edge => .inl edge)
      (shown_mono fun _ _ _ edge => .inr edge)

theorem Looks.mono
    (edges : ∀ source ∈ sources, ∀ object, .edge source.place object ∈ known →
      .edge source.place object ∈ more) {fact : Fact} (looks : Looks sources known fact) :
    Looks sources more fact := by
  cases looks with
  | node member => exact .node member
  | watch member => exact .watch member
  | object seen => exact .object (shown_mono edges seen)
  | failure member edge refused => exact .failure member (edges _ member _ edge) refused

theorem looks_union {fact : Fact} (looks : Looks sources (known ∪ more) fact) :
    Looks sources known fact ∨ fact ∈ unwatched {fact | Looks sources more fact} := by
  cases looks with
  | node member => exact .inl (.node member)
  | watch member => exact .inl (.watch member)
  | object seen =>
      rw [shown_union] at seen
      rcases seen with seen | seen
      · exact .inl (.object seen)
      · exact .inr ⟨.object seen, fun _ => Fact.noConfusion⟩
  | failure member edge refused =>
      rcases edge with edge | edge
      · exact .inl (.failure member edge refused)
      · exact .inr ⟨.failure member edge refused, fun _ => Fact.noConfusion⟩

theorem shown_of_stages {stages : Set (Set Fact)} {object : HeapObject}
    (seen : object ∈ shown sources (⋃₀ stages)) :
    ∃ known ∈ stages, object ∈ shown sources known := by
  obtain ⟨source, member, held, ⟨known, isStage, edge⟩, rest⟩ := seen
  exact ⟨known, isStage, source, member, held, edge, rest⟩

private theorem looks_of_stages {stages : Set (Set Fact)} {fact : Fact} (nonempty : stages.Nonempty)
    (looks : Looks sources (⋃₀ stages) fact) : ∃ known ∈ stages, Looks sources known fact := by
  obtain ⟨known, isStage⟩ := nonempty
  cases looks with
  | node member => exact ⟨known, isStage, .node member⟩
  | watch member => exact ⟨known, isStage, .watch member⟩
  | object seen =>
      obtain ⟨known, isStage, seen⟩ := shown_of_stages seen
      exact ⟨known, isStage, .object seen⟩
  | failure member edge refused =>
      obtain ⟨known, isStage, edge⟩ := edge
      exact ⟨known, isStage, .failure member edge refused⟩

end Shown

namespace Demand

/-- If a demand is met, it is also met with more edges known at nodes nobody watches. -/
def Local (demand : Demand) : Prop :=
  ∀ ⦃known more facts : Set Fact⦄,
    (∀ place object, .edge place object ∈ more → .watch place ∈ facts →
      .edge place object ∈ known) →
    demand known ⊆ facts → demand more ⊆ facts

/-- Demands put together with readings nested at most so many times. -/
inductive DegreeAtMost : Nat → Demand → Prop where
  | fixed {degree : Nat} {facts : Set Fact} : (∀ place, .watch place ∉ facts) →
      DegreeAtMost degree (fixed facts)
  | both {degree : Nat} {first second : Demand} : DegreeAtMost degree first →
      DegreeAtMost degree second → DegreeAtMost degree (both first second)
  | each {α : Type} {degree : Nat} {items : List α} {body : α → Demand} :
      (∀ item ∈ items, DegreeAtMost degree (body item)) → DegreeAtMost degree (each items body)
  | looks {degree : Nat} {sources : List Source} : DegreeAtMost (degree + 1) (looks sources)
  | reading {degree : Nat} {sources : List Source} {body : HeapObject → Demand} :
      (∀ object, DegreeAtMost degree (body object)) →
      DegreeAtMost (degree + 1) (reading sources body)

namespace DegreeAtMost

variable {α : Type} {degree : Nat} {demand : Demand}

theorem nothing : DegreeAtMost degree nothing :=
  .fixed fun _ => Set.notMem_empty _

private theorem failure : DegreeAtMost degree (Demand.fixed {.failure}) :=
  .fixed fun _ same => Fact.noConfusion same

theorem orFail {value : Option α} {body : α → Demand}
    (bounded : ∀ found, value = some found → DegreeAtMost degree (body found)) :
    DegreeAtMost degree (orFail value body) := by
  cases value with
  | none => exact failure
  | some found => exact bounded found rfl

theorem provided {answer : Option Bool} (bounded : DegreeAtMost degree demand) :
    DegreeAtMost degree (provided answer demand) := by
  apply orFail
  intro holds _
  cases holds with
  | false => exact nothing
  | true => exact bounded

theorem succ (bounded : DegreeAtMost degree demand) : DegreeAtMost (degree + 1) demand := by
  induction bounded with
  | fixed plain => exact .fixed plain
  | both _ _ first second => exact .both first second
  | each _ ih => exact .each ih
  | looks => exact .looks
  | reading _ ih => exact .reading ih

theorem isLocal (bounded : DegreeAtMost degree demand) : Local demand := by
  induction bounded with
  | fixed _ => exact fun _ _ _ _ met => met
  | both _ _ first second =>
      intro known more facts quiet met
      obtain ⟨here, there⟩ := Set.union_subset_iff.mp met
      exact Set.union_subset (first quiet here) (second quiet there)
  | each _ ih =>
      rintro known more facts quiet met fact ⟨item, member, demanded⟩
      exact ih item member quiet (fun _ found => met ⟨item, member, found⟩) demanded
  | @looks _ sources =>
      intro known more facts quiet met fact demanded
      exact met (demanded.mono fun source member object edge =>
        quiet source.place object edge (met (.watch member)))
  | @reading _ sources body _ ih =>
      intro known more facts quiet met
      have edges : ∀ source ∈ sources, ∀ object, .edge source.place object ∈ more →
          .edge source.place object ∈ known :=
        fun source member object edge =>
          quiet source.place object edge (met (.inr (.watch member)))
      apply Set.union_subset
      · rintro fact ⟨object, seen, demanded⟩
        have seen := shown_mono edges seen
        exact ih object quiet (fun _ found => met (.inl ⟨object, seen, found⟩)) demanded
      · exact fun fact demanded => met (.inr (demanded.mono edges))

theorem mono (bounded : DegreeAtMost degree demand) {known more : Set Fact}
    (subset : known ⊆ more) : demand known ⊆ demand more :=
  bounded.isLocal (fun _ _ edge _ => subset edge) subset_rfl

theorem of_directed (bounded : DegreeAtMost degree demand) {stages : Set (Set Fact)}
    (nonempty : stages.Nonempty) (directed : DirectedOn (· ⊆ ·) stages) {fact : Fact}
    (demanded : fact ∈ demand (⋃₀ stages)) : ∃ known ∈ stages, fact ∈ demand known := by
  induction bounded with
  | fixed _ =>
      obtain ⟨known, isStage⟩ := nonempty
      exact ⟨known, isStage, demanded⟩
  | both _ _ first second =>
      rcases demanded with demanded | demanded
      · obtain ⟨known, isStage, found⟩ := first demanded
        exact ⟨known, isStage, .inl found⟩
      · obtain ⟨known, isStage, found⟩ := second demanded
        exact ⟨known, isStage, .inr found⟩
  | each _ ih =>
      obtain ⟨item, member, demanded⟩ := demanded
      obtain ⟨known, isStage, found⟩ := ih item member demanded
      exact ⟨known, isStage, item, member, found⟩
  | looks => exact looks_of_stages nonempty demanded
  | reading bounded ih =>
      rcases demanded with ⟨object, seen, demanded⟩ | demanded
      · obtain ⟨known, isStage, seen⟩ := shown_of_stages seen
        obtain ⟨more, isStage', found⟩ := ih object demanded
        obtain ⟨total, isTotal, left, right⟩ := directed known isStage more isStage'
        refine ⟨total, isTotal, .inl ⟨object, ?_, (bounded object).mono right found⟩⟩
        exact shown_mono (fun _ _ _ edge => left edge) seen
      · obtain ⟨known, isStage, found⟩ := looks_of_stages nonempty demanded
        exact ⟨known, isStage, .inr found⟩

theorem constant (bounded : DegreeAtMost 0 demand) :
    (∀ known more, demand known ⊆ demand more) ∧
      ∀ known place, .watch place ∉ demand known := by
  generalize isZero : 0 = degree at bounded
  induction bounded with
  | fixed plain => exact ⟨fun _ _ => subset_rfl, fun _ => plain⟩
  | both _ _ first second =>
      obtain ⟨same, plain⟩ := first isZero
      obtain ⟨same', plain'⟩ := second isZero
      refine ⟨fun known more => Set.union_subset_union (same known more) (same' known more), ?_⟩
      rintro known place (found | found)
      · exact plain known place found
      · exact plain' known place found
  | each _ ih =>
      constructor
      · rintro known more fact ⟨item, member, demanded⟩
        exact ⟨item, member, (ih item member isZero).1 known more demanded⟩
      · rintro known place ⟨item, member, demanded⟩
        exact (ih item member isZero).2 known place demanded
  | looks => cases isZero
  | reading => cases isZero

/-- A demand of degree 1 splits over a union, and its subscriptions do not depend on what is
known. -/
theorem union (bounded : DegreeAtMost 1 demand) (known more : Set Fact) :
    demand (known ∪ more) ⊆ demand known ∪ unwatched (demand more) := by
  generalize isOne : 1 = degree at bounded
  induction bounded with
  | fixed _ => exact Set.subset_union_left
  | both _ _ first second =>
      rintro fact (demanded | demanded)
      · rcases first isOne demanded with found | found
        · exact .inl (.inl found)
        · exact .inr (unwatched_mono Set.subset_union_left found)
      · rcases second isOne demanded with found | found
        · exact .inl (.inr found)
        · exact .inr (unwatched_mono Set.subset_union_right found)
  | each _ ih =>
      rintro fact ⟨item, member, demanded⟩
      rcases ih item member isOne demanded with found | ⟨found, plain⟩
      · exact .inl ⟨item, member, found⟩
      · exact .inr ⟨⟨item, member, found⟩, plain⟩
  | looks => exact fun fact demanded => looks_union demanded
  | @reading _ sources body flat _ =>
      obtain rfl := Nat.succ.inj isOne
      rintro fact (⟨object, seen, demanded⟩ | demanded)
      · obtain ⟨same, plain⟩ := (flat object).constant
        rw [shown_union] at seen
        rcases seen with seen | seen
        · exact .inl (.inl ⟨object, seen, same _ _ demanded⟩)
        · refine .inr ⟨.inl ⟨object, seen, same _ _ demanded⟩, ?_⟩
          rintro place rfl
          exact plain _ place demanded
      · rcases looks_union demanded with found | ⟨found, plain⟩
        · exact .inl (.inr found)
        · exact .inr ⟨.inr found, plain⟩

end DegreeAtMost

/-- How a reading of degree 2 grows: what was seen before asks for what is new, and what is newly
seen for everything. -/
theorem reading_union {sources : List Source} {body : HeapObject → Demand}
    (linear : ∀ object, DegreeAtMost 1 (body object)) (known more : Set Fact) :
    reading sources body (known ∪ more) ⊆
      reading sources body known ∪ unwatched (looks sources more) ∪
        ({fact | ∃ object ∈ shown sources known, fact ∈ unwatched (body object more)} ∪
          {fact | ∃ object ∈ shown sources more, fact ∈ body object (known ∪ more)}) := by
  rintro fact (⟨object, seen, demanded⟩ | demanded)
  · rw [shown_union] at seen
    rcases seen with seen | seen
    · rcases (linear object).union known more demanded with found | found
      · exact .inl (.inl (.inl ⟨object, seen, found⟩))
      · exact .inr (.inl ⟨object, seen, found⟩)
    · exact .inr (.inr ⟨object, seen, demanded⟩)
  · rcases looks_union demanded with found | found
    · exact .inl (.inl (.inr found))
    · exact .inl (.inr found)

end Demand

/-! ## The degrees of statements -/

/-- Loads, stores and calls treat what is new and what is not differently; the other actions
are linear. -/
def Action.IsLinear : Action → Prop
  | .load .. | .store .. | .call .. => False
  | _ => True

namespace Frame

open Demand

variable (frame : Frame)

section

variable {degree : Nat}

theorem observing_degree {declared : Variable} {point : Option PointId}
    {body : HeapObject → Demand} (bounded : ∀ object, DegreeAtMost degree (body object)) :
    DegreeAtMost (degree + 1) (frame.observing declared point body) :=
  .orFail fun _ _ => .reading bounded

private theorem moving_degree (place : Place) (filter : Option TypeFilter) (object : HeapObject) :
    DegreeAtMost degree (frame.moving place filter object) :=
  .provided (.fixed (by simp))

private theorem triggering_degree (methods : List MethodId) :
    DegreeAtMost degree (triggering methods) :=
  .fixed (by simp)

private theorem allocating_degree {site : AllocationSite} {body : HeapObject → Demand}
    (bounded : ∀ object, DegreeAtMost degree (body object)) :
    DegreeAtMost degree (frame.allocating site body) :=
  .orFail fun object _ => .both (.fixed (by simp)) (bounded object)

private theorem placing_degree {target : Variable} {point : Option PointId} {object : HeapObject}
    {rest : Demand} (bounded : DegreeAtMost degree rest) :
    DegreeAtMost degree (frame.placing target point object rest) :=
  .orFail fun _ _ => .both (.fixed (by simp)) bounded

theorem putting_degree (key : FieldKey) (object value : HeapObject) :
    DegreeAtMost degree (frame.putting key object value) :=
  .provided (.orFail fun _ _ => .both (.fixed (by simp)) (frame.moving_degree _ _ _))

private theorem raising_degree (summary : Variable) (object : HeapObject) (caught : List TypeId)
    (handlers : List Handler) :
    DegreeAtMost degree (frame.raising summary object caught handlers) := by
  induction handlers generalizing caught with
  | nil => exact .orFail fun _ _ => .both (.fixed (by simp)) (frame.moving_degree _ _ _)
  | cons handler handlers ih =>
      exact .orFail fun _ _ => .both (.fixed (by simp)) (.both (frame.moving_degree _ _ _) (ih _))

end

private theorem assigning_degree (source : Variable) (point : Option PointId) (target : Variable)
    (targetPoint : Option PointId) (filter : Option TypeFilter) :
    DegreeAtMost 1 (frame.assigning source point target targetPoint filter) :=
  .both (frame.observing_degree fun _ => .nothing) <|
    .orFail fun _ _ => .both (.fixed (by simp)) (frame.observing_degree (frame.moving_degree _ _))

private theorem returning_degree (place : Place) (target : Variable) (point : Option PointId) :
    DegreeAtMost 1 (frame.returning place target point) :=
  .both .looks <|
    .orFail fun _ _ => .both (.fixed (by simp)) (.reading fun _ => .fixed (by simp))

private theorem copying_degree (source target : HeapObject) :
    DegreeAtMost 1 (frame.copying source target) :=
  .orFail fun _ _ => .each fun _ _ =>
    .orFail fun _ _ => .both (.fixed (by simp)) <|
      .orFail fun _ _ => .both (.fixed (by simp)) (.reading fun _ => .fixed (by simp))

private theorem folding_degree (recent : HeapObject) : DegreeAtMost 1 (frame.folding recent) := by
  unfold folding
  split
  · exact .nothing
  · exact .both (.fixed (by simp)) (frame.copying_degree _ _)

private theorem nesting_degree (statement : Statement) (remaining dimension : Nat)
    (outer : HeapObject) (type : TypeId) :
    DegreeAtMost 1 (frame.nesting statement remaining dimension outer type) := by
  induction remaining generalizing dimension outer type with
  | zero => exact .nothing
  | succ remaining ih =>
      apply DegreeAtMost.orFail
      intro element _
      cases element with
      | none => exact .nothing
      | some innerType =>
          exact .provided <| frame.allocating_degree fun _ => .orFail fun _ _ =>
            .both (.fixed (by simp)) (.both (frame.folding_degree _) (ih _ _ _))

private theorem passing_degree (point : Option PointId) (context : Context)
    (args formals : List (Option Variable)) :
    DegreeAtMost 1 (frame.passing point context args formals) := by
  fun_induction frame.passing point context args formals with
  | case1 arg args formal formals ih =>
      exact .both (frame.observing_degree fun _ => .fixed (by simp)) (.both (.fixed (by simp)) ih)
  | case2 _ _ _ _ _ ih => exact ih
  | case3 => exact .nothing

private theorem receiving_degree (context : Context) (formals : List (Option Variable))
    (receiver : Option HeapObject) : DegreeAtMost 1 (frame.receiving context formals receiver) := by
  unfold receiving
  split
  · exact .fixed (by simp)
  · exact .nothing

private theorem exchanging_degree (statement : Statement) (call : Call) (summary : MethodSummary)
    (context : Context) (formals : List (Option Variable)) :
    DegreeAtMost 1 (frame.exchanging statement call summary context formals) := by
  refine .both (frame.passing_degree _ _ _ _) (.both ?_ (frame.returning_degree _ _ _))
  unfold yielding
  split
  · exact frame.returning_degree _ _ _
  · exact .nothing

theorem linkingMethod_degree (statement : Statement) (call : Call) (callee : MethodId)
    (receiver : Option HeapObject) :
    DegreeAtMost 1 (frame.linkingMethod statement call callee receiver) := by
  refine .orFail fun _ _ => .both (.fixed (by simp)) ?_
  split
  · exact .nothing
  · refine .orFail fun method _ => ?_
    split
    · exact frame.exchanging_degree _ _ _ _ _
    · exact .both (frame.receiving_degree _ _ _) (frame.exchanging_degree _ _ _ _ _)

private theorem linkingClone_degree (statement : Statement) (call : Call) (receiver : HeapObject) :
    DegreeAtMost 1 (frame.linkingClone statement call receiver) := by
  refine frame.allocating_degree fun copy => .both ?_ (frame.copying_degree _ _)
  unfold yieldingObject
  split
  · exact frame.placing_degree .nothing
  · exact .nothing

theorem linking_degree (statement : Statement) (call : Call) (declared : Method)
    (receiver : HeapObject) :
    DegreeAtMost 1 (frame.linking statement call declared receiver) := by
  refine .provided (.orFail fun callee _ => ?_)
  split
  · exact frame.linkingClone_degree _ _ _
  · exact frame.linkingMethod_degree _ _ _ _

private theorem calling_degree (statement : Statement) (call : Call) :
    DegreeAtMost 2 (frame.calling statement call) := by
  unfold calling
  split
  · exact (frame.linkingMethod_degree _ _ _ _).succ
  · exact .both (frame.observing_degree fun _ => .nothing) <|
      .orFail fun _ _ => frame.observing_degree (frame.linking_degree _ _ _)

theorem fetching_degree (key : FieldKey) (place : Place) (object : HeapObject) :
    DegreeAtMost 1 (frame.fetching key place object) :=
  .provided (.orFail fun _ _ => .reading fun _ => .fixed (by simp))

private theorem loading_degree (point : Option PointId) (target base : Variable) (key : FieldKey) :
    DegreeAtMost 2 (frame.loading point target base key) :=
  .orFail fun _ _ =>
    .both (.fixed (by simp)) (frame.observing_degree (frame.fetching_degree _ _))

private theorem storing_degree (point : Option PointId) (base : Variable) (key : FieldKey)
    (source : Variable) : DegreeAtMost 2 (frame.storing point base key source) :=
  .both (frame.observing_degree fun _ => .nothing) <|
    frame.observing_degree fun _ => frame.observing_degree (frame.putting_degree _ _)

theorem demand_linear {statement : Statement} (linear : statement.action.IsLinear) :
    DegreeAtMost 1 (frame.demand statement) := by
  unfold demand
  generalize statement.action = action at linear ⊢
  cases action with
  | new target type =>
      exact frame.allocating_degree fun _ => frame.placing_degree <| .orFail fun _ _ =>
        .both (triggering_degree _) (frame.folding_degree _)
  | newArray target type dims =>
      exact frame.allocating_degree fun _ => frame.placing_degree <|
        .both (frame.folding_degree _) (frame.nesting_degree _ _ _ _ _)
  | copy target source cast => exact frame.assigning_degree _ _ _ _ _
  | phi target sources =>
      exact .orFail fun _ _ => .both (.fixed (by simp)) <| .each fun _ _ =>
        frame.observing_degree (frame.moving_degree _ _)
  | «return» source summary => exact frame.assigning_degree _ _ _ _ _
  | load target base key => exact linear.elim
  | store base key source => exact linear.elim
  | static access declared field initializers =>
      refine .both (triggering_degree _) ?_
      cases access <;> exact frame.assigning_degree _ _ _ _ _
  | call call => exact linear.elim
  | raise source handlers summary =>
      exact frame.observing_degree fun _ => frame.raising_degree _ _ _ _
  | classInit initializers => exact triggering_degree _

theorem demand_degree (statement : Statement) : DegreeAtMost 2 (frame.demand statement) := by
  by_cases linear : statement.action.IsLinear
  · exact (frame.demand_linear linear).succ
  · unfold demand
    generalize statement.action = action at linear ⊢
    cases action with
    | load target base key => exact frame.loading_degree _ _ _ _
    | store base key source => exact frame.storing_degree _ _ _ _
    | call call => exact frame.calling_degree _ _
    | _ => exact absurd trivial linear

theorem demand_edges {frame : Frame} {statement : Statement} {known more : Set Fact}
    (edges : ∀ place object, .edge place object ∈ known → .edge place object ∈ more) :
    frame.demand statement known ⊆ frame.demand statement more :=
  (frame.demand_degree statement).isLocal (fun place object edge _ => edges place object edge)
    subset_rfl

end Frame

end ObjectFlow
