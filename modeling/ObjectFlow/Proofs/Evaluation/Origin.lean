import ObjectFlow.Proofs.Evaluation.Demand
import ObjectFlow.Proofs.Program.Variables

/-!
# Where demanded facts come from

A statement cannot demand just anything.  The objects it moves are held by a
node, stand for older objects of such an object, or are allocated by the
statement itself; the places it fills or looks at are its own variables,
variables that connect a callee to its callers, and slots of such objects.
Nor can it move any of these objects to any of these places: `Flow` lists the
ways there are, and `Links` the callees that a call can have.  `Origin` puts
this together, and `demand_subset_origins` says that it holds of every demand.
-/

namespace ObjectFlow

open Demand

namespace Action

def written : Action → List Variable
  | .new target _ => [target]
  | .newArray target _ _ => [target]
  | .copy target _ _ => [target]
  | .phi target _ => [target]
  | .return _ summary => [summary]
  | .load target _ _ => [target]
  | .store _ _ _ => []
  | .static .get declared _ _ => [declared]
  | .static .put _ field _ => [field]
  | .call invoked => invoked.exception :: invoked.result.toList
  | .raise _ handlers summary => summary :: handlers.map Handler.target
  | .classInit _ => []

/-- The variables that an action fills without asking for a type, or as those of handlers. -/
def assigned : Action → List Variable
  | .raise _ handlers _ => handlers.map Handler.target
  | action => action.written

theorem written_of_assigned {action : Action} {declared : Variable}
    (member : declared ∈ action.assigned) : declared ∈ action.written := by
  cases action with
  | raise source handlers summary => exact List.mem_cons_of_mem _ member
  | _ => exact member

def triggered : Action → List MethodId
  | .static _ _ _ initializers => initializers
  | .classInit initializers => initializers
  | _ => []

end Action

theorem Statement.exists_write {statement : Statement} {declared : Variable}
    (member : declared ∈ statement.action.written) :
    ∃ point, (declared, point) ∈ statement.writes := by
  unfold writes
  cases isAction : statement.action with
  | static access _ _ _ => cases access <;> simp_all [Action.written, Action.defined?]
  | raise _ _ _ =>
      rw [isAction, Action.written, List.mem_cons, List.mem_map] at member
      rcases member with rfl | ⟨handler, listed, rfl⟩
      · exact ⟨none, by simp⟩
      · exact ⟨none, List.mem_append_left _ (List.mem_map.mpr ⟨handler, listed, rfl⟩)⟩
  | call _ =>
      rw [isAction, Action.written, List.mem_cons, Option.mem_toList] at member
      rcases member with rfl | isResult
      · exact ⟨none, by simp⟩
      · exact ⟨statement.point, by simp [isResult]⟩
  | _ => simp_all [Action.written, Action.defined?]

def Hierarchy.innerTypes (hierarchy : Hierarchy) : (dimensions : Nat) → TypeId → List TypeId
  | 0, _ => []
  | dimensions + 1, type =>
      match hierarchy.elementType? type with
      | some (some inner) =>
          if hierarchy.isArray? inner = some true then
            inner :: innerTypes hierarchy dimensions inner
          else
            []
      | _ => []

namespace Frame

variable (frame : Frame) (statement : Statement) (known : Set Fact)

/-- A node holds the object, or one that the object stands for when it has aged. -/
def Seen (object : HeapObject) : Prop :=
  ∃ place held, .edge place held ∈ known ∧
    (object = held ∨ frame.abstraction.summaryOf held = some object)

inductive Allocates : AllocationSite → Prop where
  | new {target : Variable} {type : TypeId} : statement.action = .new target type →
      Allocates ⟨statement.method, statement.site, type, .new⟩
  | outer {target : Variable} {type : TypeId} {dims : Nat} :
      statement.action = .newArray target type dims →
      Allocates ⟨statement.method, statement.site, type, .new⟩
  | inner {target : Variable} {type innerType : TypeId} {dims dimension : Nat} :
      statement.action = .newArray target type dims →
      (innerType, dimension) ∈ (frame.hierarchy.innerTypes (dims - 1) type).zipIdx 1 →
      Allocates ⟨statement.method, statement.site, innerType, .dimension dimension⟩
  | clone {call : Call} {receiver : HeapObject} : statement.action = .call call →
      frame.Seen known receiver →
      Allocates ⟨statement.method, statement.site, receiver.type, .clone⟩

def Folds (object : HeapObject) : Prop :=
  ∀ facts total, frame.demand statement facts ⊆ total →
    .failure ∈ total ∨ frame.folding object facts ⊆ total

inductive Moves : HeapObject → Prop where
  | seen {object : HeapObject} : frame.Seen known object → Moves object
  | fresh {site : AllocationSite} {object : HeapObject} :
      frame.Allocates statement known site → frame.recorded? site = some object →
      (site.kind ≠ .clone → frame.Folds statement object) → Moves object

def Fills (object : HeapObject) : Prop :=
  frame.Moves statement known object ∨
    ∃ recent, frame.Moves statement known recent ∧
      frame.abstraction.summaryOf recent = some object

def Receiver (receiver : Option HeapObject) : Prop :=
  ∀ object, receiver = some object → frame.Seen known object

inductive Links (call : Call) : MethodId → Option HeapObject → Prop where
  | named : call.receiver = none → Links call call.callee none
  | dispatched {receiver : Variable} {sources : List Source} {declared : Method}
      {object : HeapObject} {callee : MethodId} : call.receiver = some receiver →
      frame.sources? receiver statement.point = some sources → object ∈ shown sources known →
      frame.hierarchy.method? call.callee = some declared →
      frame.hierarchy.isSubtype? object.type declared.declaring = some true →
      frame.callee? call declared object = some callee → callee ≠ TypeTable.cloneMethod →
      Links call callee (some object)

def Records (type : TypeId) (object : HeapObject) : Prop :=
  ∃ site : AllocationSite, site.type = type ∧ frame.recorded? site = some object

def Twin (source target : HeapObject) : Prop :=
  frame.Records source.type target ∨ frame.abstraction.summaryOf source = some target

inductive Offers : HeapObject → FieldKey → Prop where
  | checked {object : HeapObject} {key : FieldKey} : frame.hasSlot? object key = some true →
      Offers object key
  | listed {object : HeapObject} {key : FieldKey} {keys : List FieldKey} :
      frame.slots? object = some keys → key ∈ keys → Offers object key
  | shared {source object : HeapObject} {key : FieldKey} {keys : List FieldKey} :
      frame.Twin source object → frame.slots? source = some keys → key ∈ keys → Offers object key
  | nested {object : HeapObject} {type element : TypeId} : frame.Records type object →
      frame.hierarchy.elementType? type = some (some element) → Offers object .arrayContents

inductive Targets : Place → Prop where
  | own {declared : Variable} {point : Option PointId} {place : Place} :
      declared ∈ statement.action.written → frame.written? declared point = some place →
      Targets place
  | formal {call : Call} {callee : MethodId} {summary : MethodSummary} {declared : Variable}
      {receiver : Option HeapObject} : statement.action = .call call →
      frame.program.summary? callee = some summary → some declared ∈ summary.formals →
      frame.Receiver known receiver →
      Targets (frame.calleePlace (frame.calleeContext statement receiver) declared)
  | slot {object : HeapObject} {key : FieldKey} {place : Place} :
      frame.Fills statement known object → frame.Offers object key →
      frame.slot? object key = some place → Targets place

inductive Visits : Place → Prop where
  | target {place : Place} : frame.Targets statement known place → Visits place
  | source {declared : Variable} {point : Option PointId} {sources : List Source}
      {source : Source} : declared ∈ statement.action.used →
      frame.sources? declared point = some sources → source ∈ sources → Visits source.place
  | callee {call : Call} {callee : MethodId} {summary : MethodSummary} {declared : Variable}
      {receiver : Option HeapObject} : statement.action = .call call →
      frame.program.summary? callee = some summary → some declared ∈ summary.slots →
      frame.Receiver known receiver →
      Visits (frame.calleePlace (frame.calleeContext statement receiver) declared)

/-- The ways in which a statement moves an object to a place. -/
inductive Flow : Place → HeapObject → Prop where
  | assigned {declared : Variable} {point : Option PointId} {place : Place} {object : HeapObject} :
      declared ∈ statement.action.assigned → frame.written? declared point = some place →
      frame.Moves statement known object → Flow place object
  | escaped {source summary : Variable} {handlers : List Handler} {place : Place}
      {object : HeapObject} : statement.action = .raise source handlers summary →
      frame.written? summary none = some place → frame.Seen known object →
      (⟨TypeTable.throwableType, handlers.map Handler.type⟩ : TypeFilter).accepts? frame.hierarchy
        object.type = some true → Flow place object
  | passed {call : Call} {callee : MethodId} {receiver : Option HeapObject}
      {summary : MethodSummary} {method : Method} {index : Nat} {arg formal : Variable}
      {sources : List Source} {object : HeapObject} : statement.action = .call call →
      frame.Links statement known call callee receiver →
      frame.program.summary? callee = some summary → frame.hierarchy.method? callee = some method →
      call.args[index]? = some (some arg) →
      summary.formals[index + if method.isStatic then 0 else 1]? = some (some formal) →
      frame.sources? arg statement.point = some sources → object ∈ shown sources known →
      Flow (frame.calleePlace (frame.calleeContext statement receiver) formal) object
  | received {call : Call} {callee : MethodId} {summary : MethodSummary} {method : Method}
      {this : Variable} {object : HeapObject} : statement.action = .call call →
      frame.Links statement known call callee (some object) →
      frame.program.summary? callee = some summary → frame.hierarchy.method? callee = some method →
      method.isStatic = false → summary.formals[0]? = some (some this) →
      Flow (frame.calleePlace (frame.calleeContext statement (some object)) this) object
  | stored {owner value : HeapObject} {key : FieldKey} {type : TypeId} :
      frame.Seen known owner → frame.hasSlot? owner key = some true →
      frame.slotType? owner key = some type → frame.Seen known value →
      frame.hierarchy.isSubtype? value.type type = some true → Flow (.field owner key type) value
  | nested {outer inner : HeapObject} {type innerType : TypeId} {place : Place} :
      frame.Moves statement known outer → frame.Records type outer →
      frame.hierarchy.elementType? type = some (some innerType) →
      frame.slot? outer .arrayContents = some place → frame.Moves statement known inner →
      frame.Records innerType inner → Flow place inner
  | copied {source target object : HeapObject} {key : FieldKey} {keys : List FieldKey}
      {here there : Place} : frame.Fills statement known target → frame.Twin source target →
      frame.slots? source = some keys → key ∈ keys → frame.slot? source key = some here →
      frame.slot? target key = some there → .edge here object ∈ known → Flow there object

inductive Origin : Fact → Prop where
  | object {object : HeapObject} : frame.Fills statement known object → Origin (.object object)
  | node {place : Place} : frame.Visits statement known place → Origin (.node place)
  | watch {place : Place} : Origin (.watch place)
  | failure : Origin .failure
  | edge {place : Place} {object : HeapObject} : frame.Flow statement known place object →
      Origin (.edge place object)
  | call {call : Call} {callee : MethodId} {receiver : Option HeapObject} :
      statement.action = .call call → frame.Links statement known call callee receiver →
      Origin (.call ⟨⟨statement.method, statement.site⟩, frame.context, callee,
        frame.calleeContext statement receiver⟩)
  | listed {method : MethodId} : method ∈ statement.action.triggered →
      Origin (.initializer method)
  | used {target : Variable} {type : TypeId} {initializers : List MethodId} {method : MethodId} :
      statement.action = .new target type →
      frame.hierarchy.classInitializersFor? type = some initializers → method ∈ initializers →
      Origin (.initializer method)

def origins : Set Fact := {fact | frame.Origin statement known fact}

variable {frame statement known}

/-! ## Pieces -/

section Pieces

variable {α : Type} {facts : Set Fact}

theorem orFail_subset {value : Option α} {body : α → Demand} (absent : .failure ∈ facts)
    (present : ∀ found, value = some found → body found known ⊆ facts) :
    orFail value body known ⊆ facts := by
  cases value with
  | none => exact Set.singleton_subset_iff.mpr absent
  | some found => exact present found rfl

theorem subset_of_orFail {value : Option α} {body : α → Demand} {found : α}
    (included : orFail value body known ⊆ facts) (same : value = some found) :
    body found known ⊆ facts := by
  rw [same] at included
  exact included

theorem provided_subset {answer : Option Bool} {body : Demand} (absent : .failure ∈ facts)
    (present : answer = some true → body known ⊆ facts) :
    provided answer body known ⊆ facts := by
  refine orFail_subset absent fun holds found => ?_
  cases holds with
  | false => exact Set.empty_subset _
  | true => exact present found

theorem each_subset {items : List α} {body : α → Demand}
    (present : ∀ item ∈ items, body item known ⊆ facts) : each items body known ⊆ facts := by
  rintro fact ⟨item, member, demanded⟩
  exact present item member demanded

theorem seen_of_edge {place : Place} {object : HeapObject} (edge : .edge place object ∈ known) :
    frame.Seen known object :=
  ⟨place, object, edge, .inl rfl⟩

private theorem looks_subset {sources : List Source}
    (visited : ∀ source ∈ sources, frame.Visits statement known source.place)
    (seen : ∀ object ∈ shown sources known, frame.Seen known object) :
    looks sources known ⊆ frame.origins statement known := by
  intro fact looked
  cases looked with
  | node member => exact .node (visited _ member)
  | watch _ => exact .watch
  | object isShown => exact .object (.inl (.seen (seen _ isShown)))
  | failure _ _ _ => exact .failure

private theorem looks_direct_subset {place : Place} (visited : frame.Visits statement known place) :
    looks [.direct place] known ⊆ frame.origins statement known := by
  refine looks_subset (fun source member => ?_) fun object isShown => ?_
  · obtain rfl := List.mem_singleton.mp member
    exact visited
  · rw [shown_direct] at isShown
    exact seen_of_edge isShown

private theorem reading_direct_subset {place : Place} {body : HeapObject → Demand}
    (visited : frame.Visits statement known place)
    (present : ∀ object, .edge place object ∈ known →
      body object known ⊆ frame.origins statement known) :
    reading [.direct place] body known ⊆ frame.origins statement known := by
  refine Set.union_subset ?_ (looks_direct_subset visited)
  rintro fact ⟨object, isShown, demanded⟩
  rw [shown_direct] at isShown
  exact present object isShown demanded

theorem aged?_cases {write : ObservedWrite} {held object : HeapObject} {seen : List HeapObject}
    (aged : frame.aged? write held = some seen) (listed : object ∈ seen) :
    object = held ∨ frame.abstraction.summaryOf held = some object := by
  obtain ⟨writer, _, rfl⟩ := Option.map_eq_some_iff.mp aged
  split at listed
  · exact .inl (List.mem_singleton.mp listed)
  · next summary found =>
      split at listed
      · split at listed
        · exact .inl (List.mem_singleton.mp listed)
        · split at listed
          · exact .inl (List.mem_singleton.mp listed)
          · exact .inr (List.mem_singleton.mp listed ▸ found)
          · rcases List.mem_cons.mp listed with same | rest
            · exact .inl same
            · exact .inr (List.mem_singleton.mp rest ▸ found)
      · exact .inl (List.mem_singleton.mp listed)

theorem seen_of_sources {declared : Variable} {point : Option PointId} {sources : List Source}
    {object : HeapObject} (found : frame.sources? declared point = some sources)
    (isShown : object ∈ shown sources known) : frame.Seen known object := by
  unfold sources? at found
  split at found
  · obtain ⟨point, _, rfl⟩ := Option.map_eq_some_iff.mp found
    obtain ⟨source, member, held, edge, seen, becomes, listed⟩ := isShown
    obtain ⟨kill, _, rfl⟩ := List.mem_map.mp member
    exact ⟨_, held, edge, aged?_cases becomes listed⟩
  · cases found
    rw [shown_direct] at isShown
    exact seen_of_edge isShown

private theorem observing_shown_subset {declared : Variable} {point : Option PointId}
    {body : HeapObject → Demand} (used : declared ∈ statement.action.used)
    (present : ∀ sources, frame.sources? declared point = some sources →
      ∀ object ∈ shown sources known, body object known ⊆ frame.origins statement known) :
    frame.observing declared point body known ⊆ frame.origins statement known := by
  refine orFail_subset .failure fun sources found => Set.union_subset ?_ ?_
  · rintro fact ⟨object, isShown, demanded⟩
    exact present sources found object isShown demanded
  · exact looks_subset (fun _ member => .source used found member)
      fun _ isShown => seen_of_sources found isShown

theorem observing_subset {declared : Variable} {point : Option PointId} {body : HeapObject → Demand}
    (used : declared ∈ statement.action.used) (present : ∀ object, frame.Seen known object →
      body object known ⊆ frame.origins statement known) :
    frame.observing declared point body known ⊆ frame.origins statement known :=
  observing_shown_subset used fun _ found object isShown =>
    present object (seen_of_sources found isShown)

private theorem observing_nothing_subset {declared : Variable}
    (used : declared ∈ statement.action.used) (point : Option PointId) :
    frame.observing declared point (fun _ => nothing) known ⊆
      frame.origins statement known :=
  observing_subset used fun _ _ => Set.empty_subset _

theorem fixed_node_subset {place : Place} (visited : frame.Visits statement known place) :
    fixed {.node place} known ⊆ frame.origins statement known :=
  Set.singleton_subset_iff.mpr (.node visited)

theorem Links.receiver {call : Call} {callee : MethodId} {receiver : Option HeapObject}
    (links : frame.Links statement known call callee receiver) : frame.Receiver known receiver := by
  intro object same
  cases links with
  | named _ => cases same
  | dispatched _ found isShown _ _ _ _ =>
      cases same
      exact seen_of_sources found isShown

theorem Flow.targets {place : Place} {object : HeapObject}
    (flow : frame.Flow statement known place object) : frame.Targets statement known place := by
  cases flow with
  | assigned member found _ => exact .own (Action.written_of_assigned member) found
  | escaped isRaise found _ _ => exact .own (by simp [isRaise, Action.written]) found
  | passed isCall links found _ _ isFormal _ _ =>
      exact .formal isCall found (List.mem_of_getElem? isFormal) links.receiver
  | received isCall links found _ _ isFormal =>
      exact .formal isCall found (List.mem_of_getElem? isFormal) links.receiver
  | stored isOwner hasSlot found _ _ =>
      exact .slot (.inl (.seen isOwner)) (.checked hasSlot) (by rw [slot?, found]; rfl)
  | nested moves records found located _ _ =>
      exact .slot (.inl moves) (.nested records found) located
  | copied fills twin slots member _ located _ =>
      exact .slot fills (.shared twin slots member) located

theorem Flow.moves {place : Place} {object : HeapObject}
    (flow : frame.Flow statement known place object) : frame.Moves statement known object := by
  cases flow with
  | assigned _ _ moves => exact moves
  | escaped _ _ isSeen _ => exact .seen isSeen
  | passed _ _ _ _ _ _ found isShown => exact .seen (seen_of_sources found isShown)
  | received _ links _ _ _ _ => exact .seen (links.receiver _ rfl)
  | stored _ _ _ isSeen _ => exact .seen isSeen
  | nested _ _ _ _ moves _ => exact moves
  | copied _ _ _ _ _ _ edge => exact .seen (seen_of_edge edge)

theorem fixed_edge_subset {place : Place} {object : HeapObject}
    (flow : frame.Flow statement known place object) :
    fixed {.edge place object} known ⊆ frame.origins statement known :=
  Set.singleton_subset_iff.mpr (.edge flow)

theorem fixed_nodeEdge_subset {place : Place} {object : HeapObject}
    (flow : frame.Flow statement known place object) :
    fixed {.node place, .edge place object} known ⊆ frame.origins statement known :=
  Set.insert_subset (.node (.target flow.targets)) (Set.singleton_subset_iff.mpr (.edge flow))

private theorem moving_subset {place : Place} {filter : Option TypeFilter} {object : HeapObject}
    (flow : (∀ given, filter = some given →
      given.accepts? frame.hierarchy object.type = some true) →
      frame.Flow statement known place object) :
    frame.moving place filter object known ⊆ frame.origins statement known := by
  refine provided_subset .failure fun accepted => fixed_edge_subset (flow fun given same => ?_)
  subst same
  exact accepted

private theorem assigning_subset {source target : Variable} {point targetPoint : Option PointId}
    {filter : Option TypeFilter} (used : source ∈ statement.action.used)
    (assigned : target ∈ statement.action.assigned) :
    frame.assigning source point target targetPoint filter known ⊆
      frame.origins statement known := by
  refine Set.union_subset (observing_nothing_subset used point) ?_
  refine orFail_subset .failure fun place found => ?_
  have targets : frame.Targets statement known place :=
    .own (Action.written_of_assigned assigned) found
  refine Set.union_subset (fixed_node_subset (.target targets))
    (observing_subset used fun object isSeen => ?_)
  exact moving_subset fun _ => .assigned assigned found (.seen isSeen)

private theorem returning_subset {place : Place} {target : Variable} {point : Option PointId}
    (visited : frame.Visits statement known place)
    (assigned : target ∈ statement.action.assigned) :
    frame.returning place target point known ⊆ frame.origins statement known := by
  refine Set.union_subset (looks_direct_subset visited) ?_
  refine orFail_subset .failure fun goal found => ?_
  have targets : frame.Targets statement known goal :=
    .own (Action.written_of_assigned assigned) found
  refine Set.union_subset (fixed_node_subset (.target targets))
    (reading_direct_subset visited fun object edge => ?_)
  exact fixed_edge_subset (.assigned assigned found (.seen (seen_of_edge edge)))

private theorem triggering_subset {methods : List MethodId}
    (present : ∀ method ∈ methods, frame.Origin statement known (.initializer method)) :
    triggering methods known ⊆ frame.origins statement known := by
  rintro _ ⟨method, member, rfl⟩
  exact present method member

/-! ## Allocation -/

private theorem allocating_subset {site : AllocationSite} {body : HeapObject → Demand}
    (moved : ∀ object, frame.recorded? site = some object → frame.Moves statement known object)
    (present : ∀ object, frame.recorded? site = some object →
      frame.Moves statement known object → body object known ⊆ frame.origins statement known) :
    frame.allocating site body known ⊆ frame.origins statement known := by
  refine orFail_subset .failure fun object found => ?_
  have moves := moved object found
  exact Set.union_subset (Set.singleton_subset_iff.mpr (.object (.inl moves)))
    (present object found moves)

theorem subset_of_allocating {site : AllocationSite} {body : HeapObject → Demand}
    {object : HeapObject} (included : frame.allocating site body known ⊆ facts)
    (recorded : frame.recorded? site = some object) : body object known ⊆ facts := by
  have included := subset_of_orFail included recorded
  exact (Set.union_subset_iff.mp included).2

theorem subset_of_placing {target : Variable} {point : Option PointId} {object : HeapObject}
    {rest : Demand} (safe : .failure ∉ facts)
    (included : frame.placing target point object rest known ⊆ facts) : rest known ⊆ facts := by
  obtain ⟨_, _, included⟩ := orFail_met safe included
  exact (both_closed included).2

private theorem copying_subset {source target : HeapObject}
    (moves : frame.Moves statement known source) (fills : frame.Fills statement known target)
    (twin : frame.Twin source target) :
    frame.copying source target known ⊆ frame.origins statement known := by
  refine orFail_subset .failure fun keys slots => each_subset fun key member => ?_
  refine orFail_subset .failure fun here isHere => ?_
  have visited : frame.Visits statement known here :=
    .target (.slot (.inl moves) (.listed slots member) isHere)
  refine Set.union_subset (fixed_node_subset visited) ?_
  refine orFail_subset .failure fun there isThere => ?_
  have targets : frame.Targets statement known there :=
    .slot fills (.shared twin slots member) isThere
  refine Set.union_subset (fixed_node_subset (.target targets))
    (reading_direct_subset visited fun object edge => ?_)
  exact fixed_edge_subset (.copied fills twin slots member isHere isThere edge)

private theorem folding_subset {recent : HeapObject} (moves : frame.Moves statement known recent) :
    frame.folding recent known ⊆ frame.origins statement known := by
  unfold folding
  cases found : frame.abstraction.summaryOf recent with
  | none => exact Set.empty_subset _
  | some summary =>
      have fills : frame.Fills statement known summary := .inr ⟨recent, moves, found⟩
      exact Set.union_subset (Set.singleton_subset_iff.mpr (.object fills))
        (copying_subset moves fills (.inr found))

private theorem nesting_subset {target : Variable} {outermost type : TypeId}
    {dims remaining dimension : Nat} {outer : HeapObject}
    (isArray : statement.action = .newArray target outermost dims)
    (within : (frame.hierarchy.innerTypes remaining type).zipIdx dimension ⊆
      (frame.hierarchy.innerTypes (dims - 1) outermost).zipIdx 1)
    (moves : frame.Moves statement known outer) (records : frame.Records type outer)
    (demanded : ∀ facts total, .failure ∉ total → frame.demand statement facts ⊆ total →
      frame.nesting statement remaining dimension outer type facts ⊆ total) :
    frame.nesting statement remaining dimension outer type known ⊆
      frame.origins statement known := by
  induction remaining generalizing dimension outer type with
  | zero => exact Set.empty_subset _
  | succ remaining ih =>
      unfold nesting at demanded ⊢
      refine orFail_subset .failure fun element found => ?_
      have demanded := fun facts total safe met =>
        subset_of_orFail (demanded facts total safe met) found
      cases element with
      | none => exact Set.empty_subset _
      | some innerType =>
          refine provided_subset .failure fun isNested => ?_
          have types : (frame.hierarchy.innerTypes (remaining + 1) type).zipIdx dimension =
              (innerType, dimension) ::
                (frame.hierarchy.innerTypes remaining innerType).zipIdx (dimension + 1) := by
            simp [Hierarchy.innerTypes, found, isNested]
          rw [types] at within
          obtain ⟨listed, within⟩ := List.cons_subset.mp within
          have inside : ∀ inner, frame.recorded?
              ⟨statement.method, statement.site, innerType, .dimension dimension⟩ = some inner →
              ∀ facts total, .failure ∉ total → frame.demand statement facts ⊆ total →
              frame.folding inner facts ⊆ total ∧ frame.nesting statement remaining (dimension + 1)
                inner innerType facts ⊆ total := by
            intro inner recorded facts total safe met
            have met := subset_of_orFail (demanded facts total safe met) isNested
            obtain ⟨_, _, met⟩ := orFail_met safe (subset_of_allocating met recorded)
            exact both_closed (both_closed met).2
          refine allocating_subset (fun inner recorded => ?_) fun inner recorded movesInner => ?_
          · exact .fresh (.inner isArray listed) recorded fun _ facts total met =>
              or_iff_not_imp_left.mpr fun safe => (inside inner recorded facts total safe met).1
          · refine orFail_subset .failure fun contents located => ?_
            have recordsInner : frame.Records innerType inner := ⟨_, rfl, recorded⟩
            refine Set.union_subset (fixed_nodeEdge_subset
              (.nested moves records found located movesInner recordsInner)) ?_
            exact Set.union_subset (folding_subset movesInner)
              (ih within movesInner recordsInner fun facts total safe met =>
                (inside inner recorded facts total safe met).2)

/-! ## Calls -/

section Calls

variable {call : Call} {callee : MethodId} {summary : MethodSummary} {receiver : Option HeapObject}
  {method : Method}

private theorem passing_subset (isCall : statement.action = .call call)
    (links : frame.Links statement known call callee receiver)
    (found : frame.program.summary? callee = some summary)
    (isMethod : frame.hierarchy.method? callee = some method) (index : Nat)
    {args formals : List (Option Variable)} (isArgs : args = call.args.drop index)
    (isFormals : formals = summary.formals.drop (index + if method.isStatic then 0 else 1)) :
    frame.passing statement.point (frame.calleeContext statement receiver) args formals known ⊆
      frame.origins statement known := by
  -- the lists are what remains from a position on, which tells the number of an argument
  induction args generalizing index formals with
  | nil => simp [passing, nothing, fixed]
  | cons arg args ih =>
      have isArg : call.args[index]? = some arg := by
        rw [← List.head?_drop, ← isArgs, List.head?_cons]
      have isArgs : args = call.args.drop (index + 1) := by
        rw [← List.tail_drop, ← isArgs, List.tail_cons]
      cases formals with
      | nil => cases arg <;> simp [passing, nothing, fixed]
      | cons formal formals =>
          have isFormal : summary.formals[index + if method.isStatic then 0 else 1]? =
              some formal := by
            rw [← List.head?_drop, ← isFormals, List.head?_cons]
          have isFormals : formals =
              summary.formals.drop (index + 1 + if method.isStatic then 0 else 1) := by
            rw [Nat.add_right_comm, ← List.tail_drop, ← isFormals, List.tail_cons]
          have rest := ih (index + 1) isArgs isFormals
          cases arg with
          | none => simpa only [passing] using rest
          | some arg =>
              cases formal with
              | none => simpa only [passing] using rest
              | some formal =>
                  have targets : frame.Targets statement known _ :=
                    .formal isCall found (List.mem_of_getElem? isFormal) links.receiver
                  have used : arg ∈ statement.action.used := by
                    simp [isCall, Action.used, List.mem_of_getElem? isArg]
                  refine Set.union_subset
                    (observing_shown_subset used fun sources read _ seen => ?_)
                    (Set.union_subset (fixed_node_subset (.target targets)) rest)
                  exact fixed_edge_subset
                    (.passed isCall links found isMethod isArg isFormal read seen)

private theorem receiving_subset (isCall : statement.action = .call call)
    (links : frame.Links statement known call callee receiver)
    (found : frame.program.summary? callee = some summary)
    (isMethod : frame.hierarchy.method? callee = some method)
    (isInstance : method.isStatic = false) :
    frame.receiving (frame.calleeContext statement receiver) summary.formals receiver known ⊆
      frame.origins statement known := by
  unfold receiving
  cases receiver with
  | none => cases summary.formals.head? with
    | none => exact Set.empty_subset _
    | some formal => cases formal <;> exact Set.empty_subset _
  | some object => cases first : summary.formals.head? with
    | none => exact Set.empty_subset _
    | some formal => cases formal with
      | none => exact Set.empty_subset _
      | some this =>
          rw [List.head?_eq_getElem?] at first
          exact fixed_nodeEdge_subset (.received isCall links found isMethod isInstance first)

private theorem exchanging_subset (isCall : statement.action = .call call)
    (links : frame.Links statement known call callee receiver)
    (found : frame.program.summary? callee = some summary)
    (isMethod : frame.hierarchy.method? callee = some method) {formals : List (Option Variable)}
    (isFormals : formals = summary.formals.drop (if method.isStatic then 0 else 1)) :
    frame.exchanging statement call summary (frame.calleeContext statement receiver) formals known ⊆
      frame.origins statement known := by
  have visited : ∀ declared, some declared ∈ summary.slots → frame.Visits statement known
      (frame.calleePlace (frame.calleeContext statement receiver) declared) :=
    fun _ listed => .callee isCall found listed links.receiver
  refine Set.union_subset (passing_subset isCall links found isMethod 0 rfl ?_)
    (Set.union_subset ?_ ?_)
  · rw [Nat.zero_add]
    exact isFormals
  · cases given : call.result with
    | none => exact Set.empty_subset _
    | some result => cases isResult : summary.result with
      | none => exact Set.empty_subset _
      | some returned =>
          exact returning_subset (visited _ (by simp [MethodSummary.slots, isResult]))
            (by rw [isCall]; simp [Action.assigned, Action.written, given])
  · exact returning_subset (visited _ (by simp [MethodSummary.slots]))
      (by rw [isCall]; exact List.mem_cons_self)

private theorem linkingMethod_subset (isCall : statement.action = .call call)
    (links : frame.Links statement known call callee receiver) :
    frame.linkingMethod statement call callee receiver known ⊆
      frame.origins statement known := by
  refine orFail_subset .failure fun _ _ => ?_
  refine Set.union_subset (Set.singleton_subset_iff.mpr (.call isCall links)) ?_
  cases found : frame.program.summary? callee with
  | none => exact Set.empty_subset _
  | some summary =>
      refine orFail_subset .failure fun method isMethod => ?_
      cases isStatic : method.isStatic with
      | true => exact exchanging_subset isCall links found isMethod (by simp [isStatic])
      | false =>
          exact Set.union_subset (receiving_subset isCall links found isMethod isStatic)
            (exchanging_subset isCall links found isMethod (by simp [isStatic]))

private theorem linkingClone_subset (isCall : statement.action = .call call) {object : HeapObject}
    (isSeen : frame.Seen known object) :
    frame.linkingClone statement call object known ⊆ frame.origins statement known := by
  refine allocating_subset (fun copy recorded => ?_) fun copy recorded moves => ?_
  · exact .fresh (.clone isCall isSeen) recorded fun other => absurd rfl other
  have twin : frame.Twin object copy :=
    .inl ⟨⟨statement.method, statement.site, object.type, .clone⟩, rfl, recorded⟩
  refine Set.union_subset ?_ (copying_subset (.seen isSeen) (.inl moves) twin)
  cases given : call.result with
  | none => exact Set.empty_subset _
  | some result =>
      refine orFail_subset .failure fun place found => ?_
      have assigned : result ∈ statement.action.assigned := by
        rw [isCall]
        simp [Action.assigned, Action.written, given]
      exact Set.union_subset (fixed_nodeEdge_subset (.assigned assigned found moves))
        (Set.empty_subset _)

private theorem calling_subset (isCall : statement.action = .call call) :
    frame.calling statement call known ⊆ frame.origins statement known := by
  unfold calling
  cases given : call.receiver with
  | none => exact linkingMethod_subset isCall (.named given)
  | some receiver =>
      have used : receiver ∈ statement.action.used := by simp [isCall, Action.used, given]
      refine Set.union_subset (observing_nothing_subset used _) ?_
      refine orFail_subset .failure fun declared method => ?_
      refine observing_shown_subset used fun sources read object isShown => ?_
      refine provided_subset .failure fun accepted => ?_
      refine orFail_subset .failure fun callee resolved => ?_
      by_cases isClone : callee = TypeTable.cloneMethod
      · rw [if_pos isClone]
        exact linkingClone_subset isCall (seen_of_sources read isShown)
      · rw [if_neg isClone]
        rw [TypeFilter.accepts?_any] at accepted
        exact linkingMethod_subset isCall
          (.dispatched given read isShown method accepted resolved isClone)

end Calls

/-! ## Statements -/

private theorem raising_subset {source summary : Variable} {object : HeapObject}
    {caught : List TypeId} {all handlers : List Handler}
    (isRaise : statement.action = .raise source all summary)
    (isSeen : frame.Seen known object) (isCaught : caught ++ handlers.map Handler.type =
      all.map Handler.type) (among : handlers ⊆ all) :
    frame.raising summary object caught handlers known ⊆ frame.origins statement known := by
  induction handlers generalizing caught with
  | nil =>
      refine orFail_subset .failure fun place found => ?_
      have targets : frame.Targets statement known place :=
        .own (by simp [isRaise, Action.written]) found
      refine Set.union_subset (fixed_node_subset (.target targets)) ?_
      refine moving_subset fun accepts => ?_
      have accepted := accepts _ rfl
      rw [← List.append_nil caught, ← List.map_nil, isCaught] at accepted
      exact .escaped isRaise found isSeen accepted
  | cons handler handlers ih =>
      obtain ⟨listed, among⟩ := List.cons_subset.mp among
      have assigned : handler.target ∈ statement.action.assigned := by
        rw [isRaise]
        exact List.mem_map_of_mem listed
      refine orFail_subset .failure fun place found => ?_
      have targets : frame.Targets statement known place :=
        .own (Action.written_of_assigned assigned) found
      refine Set.union_subset (fixed_node_subset (.target targets)) (Set.union_subset ?_ ?_)
      · exact moving_subset fun _ => .assigned assigned found (.seen isSeen)
      · exact ih (by simpa using isCaught) among

private theorem loading_subset {point : Option PointId} {target base : Variable} {key : FieldKey}
    (used : base ∈ statement.action.used) (assigned : target ∈ statement.action.assigned) :
    frame.loading point target base key known ⊆ frame.origins statement known := by
  refine orFail_subset .failure fun place found => ?_
  have targets : frame.Targets statement known place :=
    .own (Action.written_of_assigned assigned) found
  refine Set.union_subset (fixed_node_subset (.target targets))
    (observing_subset used fun object isBase => ?_)
  refine provided_subset .failure fun hasSlot => orFail_subset .failure fun slot located => ?_
  refine reading_direct_subset
    (.target (.slot (.inl (.seen isBase)) (.checked hasSlot) located)) fun held edge => ?_
  exact fixed_edge_subset (.assigned assigned found (.seen (seen_of_edge edge)))

private theorem storing_subset (point : Option PointId) {base source : Variable} (key : FieldKey)
    (usesBase : base ∈ statement.action.used) (usesSource : source ∈ statement.action.used) :
    frame.storing point base key source known ⊆ frame.origins statement known := by
  refine Set.union_subset (observing_nothing_subset usesSource _)
    (observing_subset usesBase fun object isBase => ?_)
  refine observing_subset usesSource fun value isValue => provided_subset .failure fun hasSlot => ?_
  refine orFail_subset .failure fun type found => ?_
  have located : frame.slot? object key = some (.field object key type) := by
    rw [slot?, found]
    rfl
  have targets : frame.Targets statement known (.field object key type) :=
    .slot (.inl (.seen isBase)) (.checked hasSlot) located
  refine Set.union_subset (fixed_node_subset (.target targets)) (moving_subset fun accepts => ?_)
  have admitted := accepts _ rfl
  rw [TypeFilter.accepts?_any] at admitted
  exact .stored isBase hasSlot found isValue admitted

private theorem new_subset {target : Variable} {type : TypeId}
    (isNew : statement.action = .new target type) :
    frame.demand statement known ⊆ frame.origins statement known := by
  rw [demand, isNew]
  refine allocating_subset (fun object recorded => ?_) fun object recorded moves => ?_
  · refine .fresh (.new isNew) recorded fun _ facts total demanded => ?_
    refine or_iff_not_imp_left.mpr fun safe => ?_
    rw [demand, isNew] at demanded
    obtain ⟨_, _, demanded⟩ :=
      orFail_met safe (subset_of_placing safe (subset_of_allocating demanded recorded))
    exact (both_closed demanded).2
  · refine orFail_subset .failure fun place found => ?_
    have assigned : target ∈ statement.action.assigned := by
      simp [isNew, Action.assigned, Action.written]
    refine Set.union_subset (fixed_nodeEdge_subset (.assigned assigned found moves)) ?_
    refine orFail_subset .failure fun initializers used => ?_
    exact Set.union_subset (triggering_subset fun method member => .used isNew used member)
      (folding_subset moves)

private theorem newArray_subset {target : Variable} {type : TypeId} {dims : Nat}
    (isNew : statement.action = .newArray target type dims) :
    frame.demand statement known ⊆ frame.origins statement known := by
  have inside : ∀ object, frame.recorded? ⟨statement.method, statement.site, type, .new⟩ =
      some object → ∀ facts total, .failure ∉ total → frame.demand statement facts ⊆ total →
      frame.folding object facts ⊆ total ∧
        frame.nesting statement (dims - 1) 1 object type facts ⊆ total := by
    intro object recorded facts total safe demanded
    rw [demand, isNew] at demanded
    exact both_closed (subset_of_placing safe (subset_of_allocating demanded recorded))
  rw [demand, isNew]
  refine allocating_subset (fun object recorded => ?_) fun object recorded moves => ?_
  · exact .fresh (.outer isNew) recorded fun _ facts total met =>
      or_iff_not_imp_left.mpr fun safe => (inside object recorded facts total safe met).1
  · refine orFail_subset .failure fun place found => ?_
    have assigned : target ∈ statement.action.assigned := by
      simp [isNew, Action.assigned, Action.written]
    refine Set.union_subset (fixed_nodeEdge_subset (.assigned assigned found moves)) ?_
    exact Set.union_subset (folding_subset moves)
      (nesting_subset isNew (List.Subset.refl _) moves ⟨_, rfl, recorded⟩
        fun facts total safe met => (inside object recorded facts total safe met).2)

private theorem phi_subset {target : Variable} {sources : List Variable}
    (isPhi : statement.action = .phi target sources) :
    frame.demand statement known ⊆ frame.origins statement known := by
  rw [demand, isPhi]
  refine orFail_subset .failure fun place found => ?_
  have assigned : target ∈ statement.action.assigned := by
    simp [isPhi, Action.assigned, Action.written]
  have targets : frame.Targets statement known place :=
    .own (Action.written_of_assigned assigned) found
  refine Set.union_subset (fixed_node_subset (.target targets)) ?_
  refine each_subset fun source member => ?_
  have used : source ∈ statement.action.used := by rw [isPhi]; exact member
  exact observing_subset used fun object isSeen =>
    moving_subset fun _ => .assigned assigned found (.seen isSeen)

/-- A statement demands nothing without an origin. -/
theorem demand_subset_origins (frame : Frame) (statement : Statement) (known : Set Fact) :
    frame.demand statement known ⊆ frame.origins statement known := by
  have listed : ∀ methods, (∀ method ∈ methods, method ∈ statement.action.triggered) →
      triggering methods known ⊆ frame.origins statement known :=
    fun methods among => triggering_subset fun method member => .listed (among method member)
  cases isAction : statement.action with
  | new target type => exact new_subset isAction
  | newArray target type dims => exact newArray_subset isAction
  | phi target sources => exact phi_subset isAction
  | copy target source cast =>
      rw [demand, isAction]
      exact assigning_subset (by simp [isAction, Action.used])
        (by simp [isAction, Action.assigned, Action.written])
  | «return» source summary =>
      rw [demand, isAction]
      exact assigning_subset (by simp [isAction, Action.used])
        (by simp [isAction, Action.assigned, Action.written])
  | load target base key =>
      rw [demand, isAction]
      exact loading_subset (by simp [isAction, Action.used])
        (by simp [isAction, Action.assigned, Action.written])
  | store base key source =>
      rw [demand, isAction]
      exact storing_subset _ _ (by simp [isAction, Action.used]) (by simp [isAction, Action.used])
  | static access declared field initializers =>
      rw [demand, isAction]
      refine Set.union_subset (listed _ fun _ member => by rw [isAction]; exact member) ?_
      cases access with
      | get =>
          exact assigning_subset (by simp [isAction, Action.used])
            (by simp [isAction, Action.assigned, Action.written])
      | put =>
          exact assigning_subset (by simp [isAction, Action.used])
            (by simp [isAction, Action.assigned, Action.written])
  | call call =>
      rw [demand, isAction]
      exact calling_subset isAction
  | raise source handlers summary =>
      rw [demand, isAction]
      exact observing_subset (by simp [isAction, Action.used]) fun object isSeen =>
        raising_subset isAction isSeen rfl (List.Subset.refl _)
  | classInit initializers =>
      rw [demand, isAction]
      exact listed _ fun _ member => by rw [isAction]; exact member

end Pieces

end Frame

end ObjectFlow
