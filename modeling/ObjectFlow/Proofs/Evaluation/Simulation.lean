import ObjectFlow.Proofs.Evaluation.Origin
import ObjectFlow.Proofs.Program.Variables

/-!
# Coarser views of an evaluation

A `Projection` forgets something about contexts, objects and program points: how
deep a context is, whether an object is recent, at which point a variable was
written.  A set of facts about what is left bounds the facts that are projected
into it (`Projection.within`).  If the frames of two evaluations agree up to a
projection, then whatever the coarser one demands keeps the demand of the finer
one within bounds (`Frame.demand_simulated`).

Where the finer evaluation has nothing to go on with, the coarser one must not
have anything either, unless the bound allows for failure.
-/

namespace ObjectFlow

open Demand

structure Projection where
  onContext : Context → Context
  onObject : HeapObject → HeapObject
  /-- Whether writes of a variable at different points are taken together. -/
  flat : Bool
  keepsSite : ∀ object, (onObject object).site = object.site

namespace Projection

variable (projection : Projection)

def onVariable : Variable → Variable :=
  if projection.flat then Variable.plain else id

def onReplica (replica : Replica) : Replica :=
  ⟨replica.variableId, projection.onContext replica.context⟩

def onPlace : Place → Place
  | .local replica => .local (projection.onReplica replica)
  | .localAt replica point =>
      if projection.flat then .local (projection.onReplica replica)
      else .localAt (projection.onReplica replica) point
  | .field object key type => .field (projection.onObject object) key type

def onCall (edge : CallEdge) : CallEdge :=
  ⟨edge.site, projection.onContext edge.callerContext, edge.callee,
    projection.onContext edge.calleeContext⟩

def onMethod (node : MethodContext) : MethodContext :=
  ⟨node.method, projection.onContext node.context⟩

def onStatement (statement : Statement) : Statement :=
  statement.mapVariables projection.onVariable

def onSummary (summary : MethodSummary) : MethodSummary :=
  summary.mapVariables projection.onVariable

def Holds (bound : Set Fact) : Fact → Prop
  | .edge place object => .edge (projection.onPlace place) (projection.onObject object) ∈ bound
  | .call edge => .call (projection.onCall edge) ∈ bound
  | .initializer method => .initializer method ∈ bound
  | .failure => .failure ∈ bound
  | .object _ | .node _ | .watch _ => True

def within (bound : Set Fact) : Set Fact := {fact | projection.Holds bound fact}

variable {projection}

@[simp] theorem onVariable_id (declared : Variable) :
    (projection.onVariable declared).id = declared.id := by
  unfold onVariable
  split <;> rfl

@[simp] theorem onVariable_singleton (declared : Variable) :
    (projection.onVariable declared).singleton = declared.singleton := by
  unfold onVariable
  split <;> rfl

theorem onVariable_of_plain {declared : Variable} (plain : declared.flowSensitive = false) :
    (projection.onVariable declared).flowSensitive = false := by
  unfold onVariable
  split
  · rfl
  · exact plain

@[simp] theorem onObject_type (object : HeapObject) :
    (projection.onObject object).type = object.type :=
  congrArg AllocationSite.type (projection.keepsSite object)

theorem onVariable_eq (points : projection.flat = false) : projection.onVariable = id := by
  unfold onVariable
  rw [points]
  rfl

theorem onStatement_eq (points : projection.flat = false) : projection.onStatement = id := by
  funext statement
  unfold onStatement
  rw [onVariable_eq points]
  exact statement.mapVariables_id

theorem onSummary_eq (points : projection.flat = false) : projection.onSummary = id := by
  funext summary
  unfold onSummary
  rw [onVariable_eq points]
  exact summary.mapVariables_id

end Projection

/-! ## Answers that agree -/

/-- Two look-ups have related answers.  Only where failing is allowed may the first find nothing
though the second does. -/
def Agree {α β : Type} (bound : Set Fact) (related : α → β → Prop) (fine : Option α)
    (coarse : Option β) : Prop :=
  (fine = none → coarse = none ∨ .failure ∈ bound) ∧
    ∀ value, fine = some value → ∃ image, coarse = some image ∧ related value image

namespace Agree

variable {α β : Type} {bound : Set Fact} {related : α → β → Prop} {fine : Option α}
  {coarse : Option β}

theorem of_map {change : α → β} (same : coarse = fine.map change) :
    Agree bound (fun value image => image = change value) fine coarse := by
  subst same
  constructor
  · rintro rfl
    exact .inl rfl
  · rintro value rfl
    exact ⟨change value, rfl, rfl⟩

theorem of_some {value : α} {image : β} (holds : related value image) :
    Agree bound related (some value) (some image) := by
  refine ⟨nofun, fun found isFound => ?_⟩
  cases isFound
  exact ⟨image, rfl, holds⟩

end Agree

/-! ## Demands -/

/-- As long as the coarser demand stays within the bound, so does the finer one. -/
def Demand.Simulated (projection : Projection) (bound : Set Fact) (fine coarse : Demand) : Prop :=
  coarse bound ⊆ bound → fine (projection.within bound) ⊆ projection.within bound

structure Source.Covered (projection : Projection) (bound : Set Fact) (fine coarse : Source) :
    Prop where
  place : coarse.place = projection.onPlace fine.place
  becomes : ∀ held, Agree bound
    (fun seen image => ∀ object ∈ seen, projection.onObject object ∈ image)
    (fine.becomes held) (coarse.becomes (projection.onObject held))

def SourcesCovered (projection : Projection) (bound : Set Fact) (fine coarse : List Source) :
    Prop :=
  ∀ source ∈ fine, ∃ image ∈ coarse, source.Covered projection bound image

theorem sourcesCovered_direct (projection : Projection) (bound : Set Fact) (place : Place) :
    SourcesCovered projection bound [.direct place] [.direct (projection.onPlace place)] := by
  intro source member
  rw [List.mem_singleton.mp member]
  refine ⟨_, List.mem_singleton_self _, rfl, fun held => .of_some fun object seen => ?_⟩
  rw [List.mem_singleton.mp seen]
  exact List.mem_singleton_self _

namespace Demand.Simulated

variable {α β : Type} {projection : Projection} {bound : Set Fact} {fine coarse : Demand}

theorem nothing : Simulated projection bound nothing coarse :=
  fun _ _ impossible => impossible.elim

theorem node {place : Place} : Simulated projection bound (Demand.fixed {.node place}) coarse := by
  rintro _ _ rfl
  trivial

private theorem object {object : HeapObject} :
    Simulated projection bound (Demand.fixed {.object object}) coarse := by
  rintro _ _ rfl
  trivial

theorem edge {place : Place} {object : HeapObject} :
    Simulated projection bound (Demand.fixed {.edge place object})
      (Demand.fixed {.edge (projection.onPlace place) (projection.onObject object)}) := by
  rintro closed _ rfl
  exact closed rfl

theorem nodeEdge {place : Place} {object : HeapObject} :
    Simulated projection bound (Demand.fixed {.node place, .edge place object})
      (Demand.fixed {.node (projection.onPlace place),
        .edge (projection.onPlace place) (projection.onObject object)}) := by
  rintro closed _ (rfl | rfl)
  · trivial
  · exact closed (.inr rfl)

theorem both {first second image other : Demand} (left : Simulated projection bound first image)
    (right : Simulated projection bound second other) :
    Simulated projection bound (both first second) (both image other) := by
  intro closed
  obtain ⟨closedLeft, closedRight⟩ := both_closed closed
  exact Set.union_subset (left closedLeft) (right closedRight)

theorem orFail {value : Option α} {image : Option β} {related : α → β → Prop}
    {body : α → Demand} {other : β → Demand} (agree : Agree bound related value image)
    (bodies : ∀ value image, related value image →
      Simulated projection bound (body value) (other image)) :
    Simulated projection bound (orFail value body) (orFail image other) := by
  intro closed
  cases value with
  | none =>
      rintro _ rfl
      rcases agree.1 rfl with rfl | allowed
      · exact closed rfl
      · exact allowed
  | some value =>
      obtain ⟨image, rfl, holds⟩ := agree.2 value rfl
      exact bodies value image holds closed

theorem orFail_same {value : Option α} {body other : α → Demand}
    (bodies : ∀ found, value = some found →
      Simulated projection bound (body found) (other found)) :
    Simulated projection bound (Demand.orFail value body) (Demand.orFail value other) := by
  cases value with
  | none =>
      rintro closed _ rfl
      exact closed rfl
  | some found => exact bodies found rfl

theorem provided {answer : Option Bool} (body : Simulated projection bound fine coarse) :
    Simulated projection bound (provided answer fine) (provided answer coarse) := by
  refine orFail_same fun holds _ => ?_
  cases holds with
  | false => exact nothing
  | true => exact body

theorem each {items : List α} {images : List β} {body : α → Demand} {other : β → Demand}
    (bodies : ∀ item ∈ items, ∃ image ∈ images,
      Simulated projection bound (body item) (other image)) :
    Simulated projection bound (each items body) (each images other) := by
  rintro closed fact ⟨item, member, demanded⟩
  obtain ⟨image, isImage, simulated⟩ := bodies item member
  exact simulated (fun fact demanded => closed ⟨image, isImage, demanded⟩) demanded

section Reading

variable {sources images : List Source} (covered : SourcesCovered projection bound sources images)
include covered

private theorem onObject_mem_shown {object : HeapObject}
    (seen : object ∈ shown sources (projection.within bound)) :
    projection.onObject object ∈ shown images bound := by
  obtain ⟨source, member, held, edge, objects, becomes, isSeen⟩ := seen
  obtain ⟨image, isImage, place, agree⟩ := covered source member
  obtain ⟨others, becomes', included⟩ := (agree held).2 objects becomes
  refine ⟨image, isImage, projection.onObject held, ?_, others, becomes', included object isSeen⟩
  rw [place]
  exact edge

theorem looks : Simulated projection bound (looks sources) (looks images) := by
  rintro closed fact demanded
  cases demanded with
  | node => trivial
  | watch => trivial
  | object => trivial
  | failure member edge refused =>
      obtain ⟨image, isImage, place, agree⟩ := covered _ member
      rcases (agree _).1 refused with refused' | allowed
      · refine closed (Looks.failure isImage ?_ refused')
        rw [place]
        exact edge
      · exact allowed

theorem reading {body other : HeapObject → Demand}
    (bodies : ∀ object, Simulated projection bound (body object)
      (other (projection.onObject object))) :
    Simulated projection bound (reading sources body) (reading images other) := by
  intro closed
  refine Set.union_subset ?_ (looks covered fun fact looks => closed (.inr looks))
  rintro fact ⟨object, seen, demanded⟩
  refine bodies object (fun image demanded' => closed (.inl ?_)) demanded
  exact ⟨_, onObject_mem_shown covered seen, demanded'⟩

end Reading

end Demand.Simulated

/-! ## Frames -/

namespace Frame

structure Projects (projection : Projection) (bound : Set Fact) (fine coarse : Frame) : Prop where
  hierarchy : coarse.hierarchy = fine.hierarchy
  summary : ∀ method,
    coarse.program.summary? method = (fine.program.summary? method).map projection.onSummary
  described : (coarse.program.describeStatement? coarse.statement).isSome =
    (fine.program.describeStatement? fine.statement).isSome
  context : coarse.context = projection.onContext fine.context
  initial : coarse.abstraction.initialContext =
    projection.onContext fine.abstraction.initialContext
  merge : ∀ site receiver,
    coarse.abstraction.policy.merge 0 site (receiver.map projection.onObject) coarse.context =
      projection.onContext (fine.abstraction.policy.merge 0 site receiver fine.context)
  record : ∀ site, coarse.abstraction.policy.record 0 site coarse.context =
    projection.onObject (fine.abstraction.policy.record 0 site fine.context)
  summaryOf : ∀ {recent older}, fine.abstraction.summaryOf recent = some older →
    projection.onObject older = projection.onObject recent ∧ .failure ∈ bound

def Reads (projection : Projection) (bound : Set Fact) (fine coarse : Frame) (declared : Variable)
    (point : Option PointId) : Prop :=
  Agree bound (SourcesCovered projection bound) (fine.sources? declared point)
    (coarse.sources? (projection.onVariable declared) point)

def Writes (projection : Projection) (bound : Set Fact) (fine coarse : Frame) (declared : Variable)
    (point : Option PointId) : Prop :=
  Agree bound (fun place image => image = projection.onPlace place) (fine.written? declared point)
    (coarse.written? (projection.onVariable declared) point)

structure Follows (projection : Projection) (bound : Set Fact) (fine coarse : Frame)
    (statement : Statement) : Prop where
  reads : ∀ declared ∈ statement.action.used,
    Reads projection bound fine coarse declared statement.point
  writes : ∀ write ∈ statement.writes, Writes projection bound fine coarse write.1 write.2

namespace Projects

variable {projection : Projection} {bound : Set Fact} {fine coarse : Frame}
  (projects : Projects projection bound fine coarse)
include projects

theorem replica (declared : Variable) :
    coarse.replica (projection.onVariable declared) =
      projection.onReplica (fine.replica declared) := by
  simp only [Frame.replica, Variable.replica, Projection.onReplica, Projection.onVariable_id,
    Projection.onVariable_singleton, projects.context, projects.initial]
  split <;> rfl

theorem calleePlace (context : Context) (declared : Variable) :
    coarse.calleePlace (projection.onContext context) (projection.onVariable declared) =
      projection.onPlace (fine.calleePlace context declared) := by
  simp only [Frame.calleePlace, Variable.replica, Projection.onPlace, Projection.onReplica,
    Projection.onVariable_id, Projection.onVariable_singleton, projects.initial]
  split <;> rfl

private theorem calleeContext (statement : Statement) (receiver : Option HeapObject) :
    coarse.calleeContext (projection.onStatement statement)
        (receiver.map projection.onObject) =
      projection.onContext (fine.calleeContext statement receiver) :=
  projects.merge _ _

theorem slotType? (object : HeapObject) (key : FieldKey) :
    coarse.slotType? (projection.onObject object) key = fine.slotType? object key := by
  unfold Frame.slotType?
  rw [projects.hierarchy, Projection.onObject_type]

theorem slot? (object : HeapObject) (key : FieldKey) :
    coarse.slot? (projection.onObject object) key =
      (fine.slot? object key).map projection.onPlace := by
  unfold Frame.slot?
  rw [projects.slotType?, Option.map_map]
  rfl

theorem hasSlot? (object : HeapObject) (key : FieldKey) :
    coarse.hasSlot? (projection.onObject object) key = fine.hasSlot? object key := by
  unfold Frame.hasSlot?
  rw [projects.hierarchy, Projection.onObject_type]

private theorem slots? (object : HeapObject) :
    coarse.slots? (projection.onObject object) = fine.slots? object := by
  unfold Frame.slots?
  rw [projects.hierarchy, Projection.onObject_type]

private theorem callee? (call : Call) (declared : Method) (receiver : HeapObject) :
    coarse.callee? (call.mapVariables projection.onVariable) declared
        (projection.onObject receiver) =
      fine.callee? call declared receiver := by
  unfold Frame.callee?
  rw [projects.hierarchy, Projection.onObject_type]
  rfl

private theorem recorded? (site : AllocationSite) :
    coarse.recorded? site = (fine.recorded? site).map projection.onObject := by
  unfold Frame.recorded?
  rw [projects.record, Option.map_map]
  have same := projects.described
  cases here : fine.program.describeStatement? fine.statement <;>
    cases there : coarse.program.describeStatement? coarse.statement <;>
      simp [here, there] at same ⊢

private theorem describes : Agree bound (fun _ _ => True)
    (fine.program.describeStatement? fine.statement)
    (coarse.program.describeStatement? coarse.statement) := by
  have same := projects.described
  cases here : fine.program.describeStatement? fine.statement <;>
    cases there : coarse.program.describeStatement? coarse.statement <;>
      simp [here, there, Agree] at same ⊢

/-! ### Variables that are not flow-sensitive -/

theorem reads_of_plain {declared : Variable} (plain : declared.flowSensitive = false)
    (point : Option PointId) : Reads projection bound fine coarse declared point := by
  unfold Reads Frame.sources?
  rw [plain, Projection.onVariable_of_plain plain, projects.replica]
  exact .of_some (sourcesCovered_direct projection bound (.local (fine.replica declared)))

theorem writes_of_plain {declared : Variable} (plain : declared.flowSensitive = false)
    (point : Option PointId) : Writes projection bound fine coarse declared point := by
  unfold Writes Frame.written?
  rw [plain, Projection.onVariable_of_plain plain, projects.replica]
  exact .of_some rfl

/-! ### Variables with the same program points

If the coarser frame does not tell recent objects from older ones, it covers whatever age the finer
one gives them. -/

section Flow

variable (flow : coarse.program.flow = fine.program.flow)
include flow

private theorem aged?_agrees (undivided : ∀ object, coarse.abstraction.summaryOf object = none)
    (write : ObservedWrite) (held : HeapObject) :
    Agree bound (fun seen image => ∀ object ∈ seen, projection.onObject object ∈ image)
      (fine.aged? write held) (coarse.aged? write (projection.onObject held)) := by
  rw [aged?_of_undivided (undivided _), flow]
  constructor
  · intro absent
    rw [Option.map_eq_none_iff.mp absent]
    exact .inl rfl
  · intro seen becomes
    obtain ⟨writer, isWriter, _⟩ := Option.map_eq_some_iff.mp becomes
    refine ⟨_, by rw [isWriter]; rfl, fun object listed => ?_⟩
    rcases aged?_cases becomes listed with rfl | older
    · exact List.mem_singleton_self _
    · rw [(projects.summaryOf older).1]
      exact List.mem_singleton_self _

variable (points : projection.flat = false)
include points

private theorem reads_of_flow (undivided : ∀ object, coarse.abstraction.summaryOf object = none)
    (declared : Variable) (point : Option PointId) :
    Reads projection bound fine coarse declared point := by
  cases plain : declared.flowSensitive with
  | false => exact projects.reads_of_plain plain point
  | true =>
      have same := projects.replica declared
      unfold Reads Frame.sources?
      rw [Projection.onVariable_eq points, id_eq] at same ⊢
      rw [plain, same, flow]
      cases point with
      | none => exact ⟨fun _ => .inl rfl, nofun⟩
      | some point =>
          refine .of_some fun source member => ?_
          obtain ⟨kill, listed, rfl⟩ := List.mem_map.mp member
          refine ⟨_, List.mem_map.mpr ⟨kill, listed, rfl⟩, ?_, ?_⟩
          · simp [Projection.onPlace, points]
          · exact projects.aged?_agrees flow undivided _

private theorem writes_of_flow (declared : Variable) (point : Option PointId) :
    Writes projection bound fine coarse declared point := by
  have same := projects.replica declared
  unfold Writes
  refine .of_map ?_
  unfold Frame.written?
  rw [Projection.onVariable_eq points, id_eq] at same ⊢
  rw [same, flow]
  cases declared.flowSensitive with
  | false => rfl
  | true =>
      cases point with
      | none => rfl
      | some point =>
          cases fine.program.flow.writes declared.id point <;> simp [Projection.onPlace, points]

theorem follows_of_flow (undivided : ∀ object, coarse.abstraction.summaryOf object = none)
    (statement : Statement) : Follows projection bound fine coarse statement where
  reads declared _ := projects.reads_of_flow flow points undivided declared statement.point
  writes write _ := projects.writes_of_flow flow points write.1 write.2

end Flow

end Projects

/-! ## Pieces of statements -/

variable {projection : Projection} {bound : Set Fact} {fine coarse : Frame}

private theorem observing_simulated {declared : Variable} {point : Option PointId}
    (reads : Reads projection bound fine coarse declared point)
    {body other : HeapObject → Demand}
    (bodies : ∀ object, Simulated projection bound (body object)
      (other (projection.onObject object))) :
    Simulated projection bound (fine.observing declared point body)
      (coarse.observing (projection.onVariable declared) point other) :=
  .orFail reads fun _ _ covered => .reading covered bodies

private theorem returning_simulated {place : Place} {target : Variable} {point : Option PointId}
    (writes : Writes projection bound fine coarse target point) :
    Simulated projection bound (fine.returning place target point)
      (coarse.returning (projection.onPlace place) (projection.onVariable target) point) := by
  have covered := sourcesCovered_direct projection bound place
  refine .both (.looks covered) (.orFail writes ?_)
  rintro goal _ rfl
  exact .both .node (.reading covered fun object => .edge)

private theorem placing_simulated {target : Variable} {point : Option PointId}
    (writes : Writes projection bound fine coarse target point) (object : HeapObject)
    {rest other : Demand} (continues : Simulated projection bound rest other) :
    Simulated projection bound (fine.placing target point object rest)
      (coarse.placing (projection.onVariable target) point (projection.onObject object) other) := by
  refine .orFail writes ?_
  rintro place _ rfl
  exact .both .nodeEdge continues

private theorem triggering_simulated (methods : List MethodId) :
    Simulated projection bound (triggering methods) (triggering methods) := by
  rintro closed _ ⟨method, member, rfl⟩
  exact closed ⟨method, member, rfl⟩

section Pieces

variable (projects : Projects projection bound fine coarse)
include projects

private theorem moving_simulated (place : Place) (filter : Option TypeFilter)
    (object : HeapObject) : Simulated projection bound (fine.moving place filter object)
      (coarse.moving (projection.onPlace place) filter (projection.onObject object)) := by
  unfold moving
  rw [projects.hierarchy, Projection.onObject_type]
  exact .provided .edge

private theorem assigning_simulated {source target : Variable} {point targetPoint : Option PointId}
    (reads : Reads projection bound fine coarse source point)
    (writes : Writes projection bound fine coarse target targetPoint)
    (filter : Option TypeFilter) :
    Simulated projection bound (fine.assigning source point target targetPoint filter)
      (coarse.assigning (projection.onVariable source) point (projection.onVariable target)
        targetPoint filter) := by
  refine .both (observing_simulated reads fun _ => .nothing) (.orFail writes ?_)
  rintro place _ rfl
  exact .both .node (observing_simulated reads (moving_simulated projects place filter))

private theorem allocating_simulated (site : AllocationSite) {body other : HeapObject → Demand}
    (bodies : ∀ object, Simulated projection bound (body object)
      (other (projection.onObject object))) :
    Simulated projection bound (fine.allocating site body) (coarse.allocating site other) := by
  refine .orFail (.of_map (projects.recorded? site)) ?_
  rintro object _ rfl
  exact .both .object (bodies object)

private theorem copying_simulated (source target : HeapObject) :
    Simulated projection bound (fine.copying source target)
      (coarse.copying (projection.onObject source) (projection.onObject target)) := by
  unfold copying
  rw [projects.slots?]
  refine .orFail_same fun keys _ => .each fun key member => ⟨key, member, ?_⟩
  refine .orFail (.of_map (projects.slot? source key)) ?_
  rintro here _ rfl
  refine .both .node (.orFail (.of_map (projects.slot? target key)) ?_)
  rintro there _ rfl
  exact .both .node (.reading (sourcesCovered_direct projection bound here) fun object => .edge)

private theorem folding_simulated (recent : HeapObject) (coarseDemand : Demand) :
    Simulated projection bound (fine.folding recent) coarseDemand := by
  unfold folding
  cases found : fine.abstraction.summaryOf recent with
  | none => exact .nothing
  | some older =>
      intro _
      obtain ⟨same, allowed⟩ := projects.summaryOf found
      have sameType : older.type = recent.type := by
        rw [← projection.onObject_type older, same, projection.onObject_type]
      refine Set.union_subset (Set.singleton_subset_iff.mpr trivial) ?_
      refine orFail_subset allowed fun keys _ => each_subset fun key _ => ?_
      refine orFail_subset allowed fun here isHere => ?_
      refine Set.union_subset (Set.singleton_subset_iff.mpr trivial) ?_
      refine orFail_subset allowed fun there isThere => ?_
      refine Set.union_subset (Set.singleton_subset_iff.mpr trivial) ?_
      have samePlace : projection.onPlace there = projection.onPlace here := by
        have slots : fine.slotType? older key = fine.slotType? recent key := by
          unfold slotType?
          rw [sameType]
        obtain ⟨type, isType, rfl⟩ := Option.map_eq_some_iff.mp isHere
        obtain ⟨type', isType', rfl⟩ := Option.map_eq_some_iff.mp isThere
        obtain rfl := Option.some.inj (isType'.symm.trans (slots.trans isType))
        simp only [Projection.onPlace, same]
      refine Set.union_subset ?_ ?_
      · rintro _ ⟨object, ⟨source, member, held, edge, seen, becomes, listed⟩, rfl⟩
        obtain rfl := List.mem_singleton.mp member
        cases becomes
        obtain rfl := List.mem_singleton.mp listed
        show Fact.edge (projection.onPlace there) _ ∈ bound
        rw [samePlace]
        exact edge
      · intro fact looked
        cases looked with
        | failure => exact allowed
        | _ => trivial

private theorem nesting_simulated (statement : Statement) (remaining dimension : Nat)
    (outer : HeapObject) (type : TypeId) :
    Simulated projection bound (fine.nesting statement remaining dimension outer type)
      (coarse.nesting (projection.onStatement statement) remaining dimension
        (projection.onObject outer) type) := by
  induction remaining generalizing dimension outer type with
  | zero => exact .nothing
  | succ remaining ih =>
      unfold nesting
      rw [projects.hierarchy]
      refine .orFail_same fun element _ => ?_
      cases element with
      | none => exact .nothing
      | some innerType =>
          refine .provided (allocating_simulated projects _ fun inner => ?_)
          refine .orFail (.of_map (projects.slot? outer .arrayContents)) ?_
          rintro contents _ rfl
          exact .both .nodeEdge (.both (folding_simulated projects inner _)
            (ih (dimension + 1) inner innerType))

/-! ## Calls -/

private theorem passing_simulated {point : Option PointId} (context : Context)
    {args : List (Option Variable)} (formals : List (Option Variable))
    (reads : ∀ arg, some arg ∈ args → Reads projection bound fine coarse arg point) :
    Simulated projection bound (fine.passing point context args formals)
      (coarse.passing point (projection.onContext context)
        (args.map (Option.map projection.onVariable))
        (formals.map (Option.map projection.onVariable))) := by
  fun_induction fine.passing point context args formals with
  | case1 arg args formal formals ih =>
      rw [List.map_cons, List.map_cons, Option.map_some, Option.map_some, passing,
        projects.calleePlace]
      refine .both (observing_simulated (reads arg List.mem_cons_self) fun object => .edge) ?_
      exact .both .node (ih fun arg member => reads arg (List.mem_cons_of_mem _ member))
  | case2 arg args formal formals differs ih =>
      rw [List.map_cons, List.map_cons, passing]
      · exact ih fun arg member => reads arg (List.mem_cons_of_mem _ member)
      · intro arg' formal' same same'
        obtain ⟨_, isArg, _⟩ := Option.map_eq_some_iff.mp same
        obtain ⟨_, isFormal, _⟩ := Option.map_eq_some_iff.mp same'
        exact differs _ _ isArg isFormal
  | case3 => exact .nothing

private theorem receiving_simulated (context : Context) (formals : List (Option Variable))
    (receiver : Option HeapObject) :
    Simulated projection bound (fine.receiving context formals receiver)
      (coarse.receiving (projection.onContext context)
        (formals.map (Option.map projection.onVariable)) (receiver.map projection.onObject)) := by
  unfold receiving
  rw [List.head?_map]
  cases formals.head? with
  | none => exact .nothing
  | some formal =>
      cases formal with
      | none => exact .nothing
      | some this =>
          cases receiver with
          | none => exact .nothing
          | some object =>
              simp only [Option.map_some, projects.calleePlace]
              exact .nodeEdge

private theorem yielding_simulated {point : Option PointId} (context : Context)
    {result : Option Variable} (returned : Option Variable)
    (writes : ∀ target, result = some target → Writes projection bound fine coarse target point) :
    Simulated projection bound (fine.yielding point context result returned)
      (coarse.yielding point (projection.onContext context) (result.map projection.onVariable)
        (returned.map projection.onVariable)) := by
  cases result with
  | none => exact .nothing
  | some result =>
      cases returned with
      | none => exact .nothing
      | some returned =>
          simp only [yielding, Option.map_some, projects.calleePlace]
          exact returning_simulated (writes result rfl)

private theorem putting_simulated (key : FieldKey) (object value : HeapObject) :
    Simulated projection bound (fine.putting key object value)
      (coarse.putting key (projection.onObject object) (projection.onObject value)) := by
  unfold putting
  rw [projects.hasSlot?, projects.slotType?]
  refine .provided (.orFail_same fun type _ => .both .node ?_)
  exact moving_simulated projects (.field object key type) _ value

private theorem fetching_simulated (key : FieldKey) (place : Place) (object : HeapObject) :
    Simulated projection bound (fine.fetching key place object)
      (coarse.fetching key (projection.onPlace place) (projection.onObject object)) := by
  unfold fetching
  rw [projects.hasSlot?]
  refine .provided (.orFail (.of_map (projects.slot? object key)) ?_)
  rintro slot _ rfl
  exact .reading (sourcesCovered_direct projection bound slot) fun held => .edge

private theorem raising_simulated (summary : Variable)
    (writesSummary : Writes projection bound fine coarse summary none) (object : HeapObject)
    (caught : List TypeId) (handlers : List Handler)
    (writes : ∀ handler ∈ handlers, Writes projection bound fine coarse handler.target none) :
    Simulated projection bound (fine.raising summary object caught handlers)
      (coarse.raising (projection.onVariable summary) (projection.onObject object) caught
        (handlers.map (Handler.mapVariables projection.onVariable))) := by
  induction handlers generalizing caught with
  | nil =>
      refine .orFail writesSummary ?_
      rintro place _ rfl
      exact .both .node (moving_simulated projects place _ object)
  | cons handler handlers ih =>
      refine .orFail (writes handler List.mem_cons_self) ?_
      rintro place _ rfl
      refine .both .node (.both (moving_simulated projects place _ object) ?_)
      exact ih _ fun other member => writes other (List.mem_cons_of_mem _ member)

end Pieces

/-! ## Statements -/

section Statements

variable {statement : Statement} (follows : Follows projection bound fine coarse statement)
include follows

theorem writes_result {call : Call} (isCall : statement.action = .call call) {target : Variable}
    (isResult : call.result = some target) :
    Writes projection bound fine coarse target statement.point := by
  have listed : (target, statement.point) ∈ statement.writes := by
    simp [Statement.writes, isCall, isResult]
  exact follows.writes _ listed

variable (projects : Projects projection bound fine coarse)
include projects

section Calls

variable {call : Call} (isCall : statement.action = .call call)
include isCall

private theorem exchanging_simulated (summary : MethodSummary) (context : Context)
    (formals : List (Option Variable)) :
    Simulated projection bound (fine.exchanging statement call summary context formals)
      (coarse.exchanging (projection.onStatement statement)
        (call.mapVariables projection.onVariable) (projection.onSummary summary)
        (projection.onContext context) (formals.map (Option.map projection.onVariable))) := by
  have args : ∀ arg, some arg ∈ call.args →
      Reads projection bound fine coarse arg statement.point := by
    intro arg member
    have used : arg ∈ statement.action.used := by
      simp [Action.used, isCall, member]
    exact follows.reads arg used
  have thrown : (call.exception, none) ∈ statement.writes := by
    simp [Statement.writes, isCall]
  refine .both (passing_simulated projects context formals args) (.both ?_ ?_)
  · exact yielding_simulated projects context summary.result fun target isResult =>
      writes_result follows isCall isResult
  · unfold Projection.onSummary MethodSummary.mapVariables
    dsimp only
    rw [projects.calleePlace]
    exact returning_simulated (follows.writes _ thrown)

private theorem linkingMethod_simulated (callee : MethodId) (receiver : Option HeapObject) :
    Simulated projection bound (fine.linkingMethod statement call callee receiver)
      (coarse.linkingMethod (projection.onStatement statement)
        (call.mapVariables projection.onVariable) callee (receiver.map projection.onObject)) := by
  unfold linkingMethod
  refine .orFail projects.describes fun _ _ _ => ?_
  rw [projects.calleeContext, projects.summary, projects.hierarchy]
  refine .both ?_ ?_
  · rintro closed _ rfl
    rw [projects.context] at closed
    exact closed rfl
  · cases fine.program.summary? callee with
    | none => exact .nothing
    | some summary =>
        refine .orFail_same fun method _ => ?_
        split
        · exact exchanging_simulated follows projects isCall summary _ summary.formals
        · have dropped : (projection.onSummary summary).formals.drop 1 =
              (summary.formals.drop 1).map (Option.map projection.onVariable) := List.map_drop.symm
          rw [dropped]
          exact .both (receiving_simulated projects _ _ _)
            (exchanging_simulated follows projects isCall summary _ _)

private theorem linkingClone_simulated (receiver : HeapObject) :
    Simulated projection bound (fine.linkingClone statement call receiver)
      (coarse.linkingClone (projection.onStatement statement)
        (call.mapVariables projection.onVariable) (projection.onObject receiver)) := by
  unfold linkingClone
  rw [projection.onObject_type]
  refine allocating_simulated projects _ fun copy => .both ?_ (copying_simulated projects _ _)
  unfold Call.mapVariables
  dsimp only
  cases isResult : call.result with
  | none => exact .nothing
  | some result =>
      exact placing_simulated (writes_result follows isCall isResult) copy .nothing

private theorem linking_simulated (declared : Method) (receiver : HeapObject) :
    Simulated projection bound (fine.linking statement call declared receiver)
      (coarse.linking (projection.onStatement statement)
        (call.mapVariables projection.onVariable) declared (projection.onObject receiver)) := by
  unfold linking
  rw [projects.hierarchy, projection.onObject_type, projects.callee?]
  refine .provided (.orFail_same fun callee _ => ?_)
  split
  · exact linkingClone_simulated follows projects isCall receiver
  · exact linkingMethod_simulated follows projects isCall callee (some receiver)

private theorem calling_simulated :
    Simulated projection bound (fine.calling statement call)
      (coarse.calling (projection.onStatement statement)
        (call.mapVariables projection.onVariable)) := by
  unfold calling Call.mapVariables
  dsimp only
  cases isReceiver : call.receiver with
  | none => exact linkingMethod_simulated follows projects isCall call.callee none
  | some receiver =>
      have used : receiver ∈ statement.action.used := by
        simp [Action.used, isCall, isReceiver]
      have reads := follows.reads receiver used
      rw [projects.hierarchy]
      refine .both (observing_simulated reads fun _ => .nothing) (.orFail_same fun declared _ => ?_)
      refine observing_simulated reads fun object => ?_
      exact linking_simulated follows projects isCall declared object

end Calls

theorem demand_simulated :
    Simulated projection bound (fine.demand statement)
      (coarse.demand (projection.onStatement statement)) := by
  obtain ⟨method, site, point, action⟩ := statement
  have reads := follows.reads
  have writes := follows.writes
  cases action with
  | new target type =>
      have writes := writes (target, point) List.mem_cons_self
      refine allocating_simulated projects _ fun object => placing_simulated writes object ?_
      rw [projects.hierarchy]
      refine .orFail_same fun initializers _ => ?_
      exact .both (triggering_simulated initializers) (folding_simulated projects object _)
  | newArray target type dims =>
      have writes := writes (target, point) List.mem_cons_self
      refine allocating_simulated projects _ fun outer => placing_simulated writes outer ?_
      exact .both (folding_simulated projects outer _)
        (nesting_simulated projects _ (dims - 1) 1 outer type)
  | copy target source cast =>
      exact assigning_simulated projects (reads source List.mem_cons_self)
        (writes (target, point) List.mem_cons_self) _
  | phi target sources =>
      refine .orFail (writes (target, point) List.mem_cons_self) ?_
      rintro place _ rfl
      refine .both .node (.each fun source member => ⟨_, List.mem_map_of_mem member, ?_⟩)
      exact observing_simulated (reads source member) (moving_simulated projects place none)
  | «return» source summary =>
      exact assigning_simulated projects (reads source List.mem_cons_self)
        (writes (summary, none) List.mem_cons_self) none
  | load target base key =>
      refine .orFail (writes (target, point) List.mem_cons_self) ?_
      rintro place _ rfl
      exact .both .node (observing_simulated (reads base List.mem_cons_self)
        (fetching_simulated projects key place))
  | store base key source =>
      have readsSource := reads source (List.mem_cons_of_mem _ List.mem_cons_self)
      refine .both (observing_simulated readsSource fun _ => .nothing) ?_
      refine observing_simulated (reads base List.mem_cons_self) fun object => ?_
      exact observing_simulated readsSource (putting_simulated projects key object)
  | static access declared field initializers =>
      refine .both (triggering_simulated initializers) ?_
      cases access with
      | get =>
          exact assigning_simulated projects (reads field List.mem_cons_self)
            (writes (declared, point) List.mem_cons_self) none
      | put =>
          exact assigning_simulated projects (reads declared List.mem_cons_self)
            (writes (field, point) List.mem_cons_self) none
  | call call => exact calling_simulated follows projects rfl
  | raise source handlers summary =>
      refine observing_simulated (reads source List.mem_cons_self) fun object => ?_
      refine raising_simulated projects summary ?_ object [] handlers fun handler member => ?_
      · exact writes (summary, none) (List.mem_append_right _ List.mem_cons_self)
      · exact writes (handler.target, none)
          (List.mem_append_left _ (List.mem_map.mpr ⟨handler, member, rfl⟩))
  | classInit initializers => exact triggering_simulated initializers

end Statements

end Frame

end ObjectFlow
