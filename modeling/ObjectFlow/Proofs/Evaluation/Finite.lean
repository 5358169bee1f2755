import Mathlib.Data.Set.Finite.Lattice
import ObjectFlow.Proofs.Evaluation.Degree
import ObjectFlow.Proofs.Evaluation.Origin
import ObjectFlow.Proofs.Hierarchy.Inheritance
import ObjectFlow.Proofs.Policy

/-!
# Statements have finitely much to add

A statement in a context names finitely many variables, fields, callees and
sites.  So if finitely many objects are seen, what it demands lists finitely
many facts.  Under a tame policy it also makes only finitely many objects, and
then every graph lies in a bound that is closed under the demand and lists
finitely many facts.
-/

namespace ObjectFlow

open Demand

def Action.callee? : Action → Option MethodId
  | .call invoked => some invoked.callee
  | _ => none

def Statement.allocationSites (hierarchy : Hierarchy) (statement : Statement) :
    List AllocationSite :=
  match statement.action with
  | .new _ type => [⟨statement.method, statement.site, type, .new⟩]
  | .newArray _ type dims =>
      ⟨statement.method, statement.site, type, .new⟩ ::
        ((hierarchy.innerTypes (dims - 1) type).zipIdx 1).map fun (inner, dimension) =>
          ⟨statement.method, statement.site, inner, .dimension dimension⟩
  | _ => []

private theorem Hierarchy.resolveMethod?_mem {hierarchy : Hierarchy} {receiver : TypeId}
    {selector : Selector} {callee : MethodId}
    (resolved : hierarchy.resolveMethod? receiver selector = some (some callee)) :
    ∃ type, ∃ info ∈ hierarchy.lineage type, callee ∈ info.methods := by
  have search : ∀ type, (hierarchy.lineage type).findSome? (fun classInfo =>
      classInfo.methods.find? fun id => (hierarchy.method? id).any (·.implements selector)) =
        some callee → ∃ type, ∃ info ∈ hierarchy.lineage type, callee ∈ info.methods := by
    intro type found
    obtain ⟨info, isInfo, found⟩ := List.exists_of_findSome?_eq_some found
    exact ⟨type, info, isInfo, List.mem_of_find?_eq_some found⟩
  obtain ⟨kind, _, resolved⟩ := Option.bind_eq_some_iff.mp resolved
  cases kind with
  | primitive _ => cases resolved
  | declared _ => exact search _ (Option.some.inj resolved)
  | array _ => exact search _ (Option.some.inj resolved)

/-! ## What a program is made of -/

namespace Program

variable (program : Program)

def elementTypes : List TypeId :=
  program.hierarchy.table.types.filterMap fun info => info.kind.element?

def classes : List ClassInfo :=
  program.hierarchy.table.types.filterMap fun info => info.kind.classInfo?

def slotKeys : List FieldKey :=
  .arrayContents :: (List.range program.hierarchy.table.fields.length).map .named

def slotTypes : List TypeId :=
  TypeTable.objectType :: program.hierarchy.table.fields.map Field.type ++ program.elementTypes

variable {program}

private theorem mem_elementTypes {array element : TypeId}
    (found : program.hierarchy.elementType? array = some (some element)) :
    element ∈ program.elementTypes := by
  obtain ⟨kind, isKind, isElement⟩ := Option.map_eq_some_iff.mp found
  obtain ⟨info, listed, rfl⟩ := Option.map_eq_some_iff.mp isKind
  exact List.mem_filterMap.mpr ⟨info, List.mem_of_getElem? listed, isElement⟩

theorem mem_classes {type : TypeId} {info : ClassInfo}
    (member : info ∈ program.hierarchy.lineage type) : info ∈ program.classes := by
  obtain ⟨_, sup, _, isClass, _⟩ := Hierarchy.mem_lineageWithin member
  obtain ⟨entry, listed, isKind⟩ :=
    Option.map_eq_some_iff.mp (TypeTable.kind?_of_classInfo? isClass)
  exact List.mem_filterMap.mpr ⟨entry, List.mem_of_getElem? listed, by rw [isKind]; rfl⟩

end Program

namespace Frame

variable {frame : Frame} {statement : Statement}

theorem mem_slots {object : HeapObject} {key : FieldKey} {type : TypeId}
    (found : frame.slotType? object key = some type) :
    key ∈ frame.program.slotKeys ∧ type ∈ frame.program.slotTypes := by
  cases key with
  | named field =>
      obtain ⟨info, isField, rfl⟩ := Option.map_eq_some_iff.mp found
      have below := (List.getElem?_eq_some_iff.mp isField).1
      refine ⟨List.mem_cons_of_mem _ (List.mem_map_of_mem (List.mem_range.mpr below)), ?_⟩
      exact List.mem_append_left _ (List.mem_cons_of_mem _
        (List.mem_map_of_mem (List.mem_of_getElem? isField)))
  | arrayContents =>
      refine ⟨List.mem_cons_self, ?_⟩
      obtain ⟨element, isElement, rfl⟩ := Option.map_eq_some_iff.mp found
      cases element with
      | none => exact List.mem_append_left _ List.mem_cons_self
      | some element => exact List.mem_append_right _ (Program.mem_elementTypes isElement)

theorem Links.callee_cases {known : Set Fact} {call : Call} {callee : MethodId}
    {receiver : Option HeapObject} (links : frame.Links statement known call callee receiver) :
    callee = call.callee ∨ ∃ info ∈ frame.program.classes, callee ∈ info.methods := by
  cases links with
  | named _ => exact .inl rfl
  | dispatched _ _ _ _ _ resolved _ =>
      unfold callee? at resolved
      split at resolved
      · exact .inl (Option.some.inj resolved).symm
      · exact .inl (Option.some.inj resolved).symm
      · obtain ⟨type, info, isInfo, isMethod⟩ :=
          Hierarchy.resolveMethod?_mem (Option.join_eq_some_iff.mp resolved)
        exact .inr ⟨info, Program.mem_classes isInfo, isMethod⟩

theorem Allocates.site_cases {known : Set Fact} {site : AllocationSite}
    (allocates : frame.Allocates statement known site) :
    site ∈ statement.allocationSites frame.hierarchy ∨
      ∃ call receiver, statement.action = .call call ∧ frame.Seen known receiver ∧
        site = ⟨statement.method, statement.site, receiver.type, .clone⟩ := by
  unfold Statement.allocationSites
  cases allocates with
  | new isAction => simp [isAction]
  | outer isAction => simp [isAction]
  | @inner target type innerType dims dimension isAction listed =>
      rw [isAction]
      exact .inl (List.mem_cons_of_mem _ (List.mem_map.mpr ⟨(innerType, dimension), listed, rfl⟩))
  | clone isCall isSeen => exact .inr ⟨_, _, isCall, isSeen, rfl⟩

/-! ## Few seen objects, few facts -/

private theorem finite_answers {α β : Type} {items : Set α} (finite : items.Finite)
    (look : α → Option β) : {value | ∃ item ∈ items, look item = some value}.Finite :=
  ((finite.image look).preimage (Option.some_injective β).injOn).subset
    fun _ ⟨item, member, same⟩ => ⟨item, member, same⟩

section Finite

variable {known : Set Fact} (finite : {object | frame.Seen known object}.Finite)
include finite

theorem finite_receivers : {receiver | frame.Receiver known receiver}.Finite := by
  refine ((finite.image some).insert none).subset fun receiver isReceiver => ?_
  cases receiver with
  | none => exact .inl rfl
  | some object => exact .inr ⟨object, isReceiver object rfl, rfl⟩

theorem finite_moves (statement : Statement) :
    {object | frame.Moves statement known object}.Finite := by
  have sites : {site | frame.Allocates statement known site}.Finite := by
    let clone (receiver : HeapObject) : AllocationSite :=
      ⟨statement.method, statement.site, receiver.type, .clone⟩
    refine ((List.finite_toSet (statement.allocationSites frame.hierarchy)).union
      (finite.image clone)).subset fun site allocates => ?_
    rcases allocates.site_cases with listed | ⟨_, receiver, _, isSeen, rfl⟩
    · exact .inl listed
    · exact .inr ⟨receiver, isSeen, rfl⟩
  refine (finite.union (finite_answers sites frame.recorded?)).subset fun object moves => ?_
  cases moves with
  | seen isSeen => exact .inl isSeen
  | fresh allocates recorded _ => exact .inr ⟨_, allocates, recorded⟩

private theorem finite_fills (statement : Statement) :
    {object | frame.Fills statement known object}.Finite := by
  have moves := finite_moves finite statement
  exact moves.union (finite_answers moves frame.abstraction.summaryOf)

private theorem finite_targets (statement : Statement) :
    {place | frame.Targets statement known place}.Finite := by
  let written : List Place := statement.action.written.flatMap fun declared =>
    .local (frame.replica declared) ::
      frame.program.flow.kills.map fun kill => .localAt (frame.replica declared) kill.1
  let formals : List Variable := frame.program.summaries.flatMap fun entry =>
    entry.2.formals.filterMap id
  let passed (receiver : Option HeapObject) (declared : Variable) : Place :=
    frame.calleePlace (frame.calleeContext statement receiver) declared
  let slots : List (FieldKey × TypeId) := frame.program.slotKeys.product frame.program.slotTypes
  let slot (object : HeapObject) (slot : FieldKey × TypeId) : Place := .field object slot.1 slot.2
  refine (((List.finite_toSet written).union
    ((finite_receivers finite).image2 passed (List.finite_toSet formals))).union
    ((finite_fills finite statement).image2 slot
      (List.finite_toSet slots))).subset fun place targets => ?_
  cases targets with
  | @own declared _ _ member found =>
      refine .inl (.inl (List.mem_flatMap.mpr ⟨declared, member, ?_⟩))
      rcases written?_cases found with rfl | ⟨kill, writes, rfl⟩
      · exact List.mem_cons_self
      · have writes : frame.program.flow.kills.reverse.lookup kill = some declared.id :=
          of_decide_eq_true writes
        exact List.mem_cons_of_mem _
          (List.mem_map.mpr ⟨_, List.mem_reverse.mp (mem_of_lookup writes), rfl⟩)
  | @formal call callee summary declared receiver isCall found listed isReceiver =>
      refine .inl (.inr ⟨receiver, isReceiver, declared, ?_, rfl⟩)
      exact List.mem_flatMap.mpr ⟨_, mem_of_lookup found, List.mem_filterMap.mpr ⟨_, listed, rfl⟩⟩
  | @slot object key place fills _ found =>
      obtain ⟨type, isType, rfl⟩ := Option.map_eq_some_iff.mp found
      exact .inr ⟨object, fills, (key, type), List.mem_product.mpr (mem_slots isType), rfl⟩

private theorem finite_origins (statement : Statement) :
    {fact | fact ∈ frame.origins statement known ∧ fact.IsListed}.Finite := by
  let callees : List MethodId :=
    statement.action.callee?.toList ++ frame.program.classes.flatMap ClassInfo.methods
  let called (receiver : Option HeapObject) (callee : MethodId) : Fact :=
    .call ⟨⟨statement.method, statement.site⟩, frame.context, callee,
      frame.calleeContext statement receiver⟩
  let triggered : List Fact :=
    (statement.action.triggered ++
      frame.program.classes.filterMap ClassInfo.classInitializer).map .initializer
  refine ((((finite_targets finite statement).image2 Fact.edge
    (finite_moves finite statement)).union
    ((finite_receivers finite).image2 called (List.finite_toSet callees))).union
    (List.finite_toSet triggered)).subset fun fact ⟨origin, isListed⟩ => ?_
  cases origin with
  | edge flow => exact .inl (.inl ⟨_, flow.targets, _, flow.moves, rfl⟩)
  | @call call callee receiver isCall links =>
      refine .inl (.inr ⟨receiver, links.receiver, callee, ?_, rfl⟩)
      rcases links.callee_cases with rfl | ⟨info, isInfo, isMethod⟩
      · exact List.mem_append_left _ (by rw [isCall]; exact List.mem_singleton_self _)
      · exact List.mem_append_right _ (List.mem_flatMap.mpr ⟨info, isInfo, isMethod⟩)
  | listed isTriggered =>
      exact .inr (List.mem_map_of_mem (List.mem_append_left _ isTriggered))
  | used _ isUsed member =>
      obtain ⟨info, isInfo, found⟩ := Hierarchy.mem_classInitializersFor? isUsed member
      exact .inr (List.mem_map_of_mem (List.mem_append_right _
        (List.mem_filterMap.mpr ⟨info, Program.mem_classes isInfo, found⟩)))
  | _ => exact isListed.elim

end Finite

/-! ## A bound for every graph -/

section Bound

variable (frame statement) (held : Set HeapObject)

def clonedTypes : Set TypeId :=
  HeapObject.type '' held ∪
    {type | ∃ site ∈ statement.allocationSites frame.hierarchy, site.type = type}

def makingSites : Set AllocationSite :=
  {site | site ∈ statement.allocationSites frame.hierarchy} ∪
    (fun type => ⟨statement.method, statement.site, type, .clone⟩) ''
      frame.clonedTypes statement held

def madeObjects : Set HeapObject :=
  held ∪ {object | ∃ site ∈ frame.makingSites statement held, frame.recorded? site = some object}

def boundObjects : Set HeapObject :=
  frame.madeObjects statement held ∪ {object | ∃ recent ∈ frame.madeObjects statement held,
    frame.abstraction.summaryOf recent = some object}

def boundEdges : Set Fact :=
  {fact | ∃ place, ∃ object ∈ frame.boundObjects statement held, fact = .edge place object}

variable {frame statement held}

private theorem finite_boundObjects (finite : held.Finite) :
    (frame.boundObjects statement held).Finite := by
  have sites := List.finite_toSet (statement.allocationSites frame.hierarchy)
  have types : (frame.clonedTypes statement held).Finite :=
    (finite.image _).union (sites.image AllocationSite.type)
  have made : (frame.madeObjects statement held).Finite :=
    finite.union (finite_answers (sites.union (types.image _)) frame.recorded?)
  exact made.union (finite_answers made _)

private theorem type_of_boundObject (tame : frame.abstraction.policy.Tame) {object : HeapObject}
    (member : object ∈ frame.boundObjects statement held) :
    object.type ∈ frame.clonedTypes statement held := by
  have ofMade : ∀ made ∈ frame.madeObjects statement held,
      made.type ∈ frame.clonedTypes statement held := by
    rintro made (isHeld | ⟨site, isMade, recorded⟩)
    · exact .inl ⟨made, isHeld, rfl⟩
    · obtain ⟨_, _, rfl⟩ := Option.map_eq_some_iff.mp recorded
      rw [tame.record]
      rcases isMade with listed | ⟨type, isType, rfl⟩
      · exact .inr ⟨site, listed, rfl⟩
      · exact isType
  rcases member with isMade | ⟨recent, isMade, found⟩
  · exact ofMade object isMade
  · rw [(tame.summary found).1]
    exact ofMade recent isMade

theorem boundObject_of_seen (tame : frame.abstraction.policy.Tame) {object : HeapObject}
    (isSeen : frame.Seen (frame.boundEdges statement held) object) :
    object ∈ frame.boundObjects statement held := by
  obtain ⟨_, _, ⟨place, holder, isObject, same⟩, isHolder⟩ := isSeen
  cases same
  rcases isHolder with rfl | found
  · exact isObject
  · rcases isObject with isMade | ⟨recent, _, found'⟩
    · exact .inr ⟨_, isMade, found⟩
    · rw [HeapAbstraction.summaryOf, (tame.summary found').2] at found
      cases found

private theorem boundObject_of_moves (tame : frame.abstraction.policy.Tame) {object : HeapObject}
    (moves : frame.Moves statement (frame.boundEdges statement held) object) :
    object ∈ frame.boundObjects statement held := by
  cases moves with
  | seen isSeen => exact boundObject_of_seen tame isSeen
  | fresh allocates recorded _ =>
      refine .inl (.inr ⟨_, ?_, recorded⟩)
      rcases allocates.site_cases with listed | ⟨_, receiver, _, isSeen, rfl⟩
      · exact .inl listed
      · exact .inr ⟨_, type_of_boundObject tame (boundObject_of_seen tame isSeen), rfl⟩

end Bound

private theorem finite_held (graph : Graph) (reader : SubscriberId) :
    {object | ∃ place, .edge place object ∈ graph.facts reader}.Finite := by
  refine (List.finite_toSet graph.objects.keys).subset ?_
  rintro object ⟨place, node, id, _, named, _⟩
  exact Interner.mem_keys_iff.mpr ⟨id, named⟩

/-- Under a tame policy a statement makes finitely many objects of those that a graph holds, so it
leads from the graph to finitely many facts. -/
theorem exists_bound (tame : frame.abstraction.policy.Tame) (statement : Statement) (graph : Graph)
    (reader : SubscriberId) :
    ∃ bound, graph.facts reader ⊆ bound ∧ frame.demand statement bound ⊆ bound ∧
      {fact | fact ∈ bound ∧ fact.IsListed}.Finite := by
  let known := frame.boundEdges statement
    {object | ∃ place, .edge place object ∈ graph.facts reader}
  have finite : {object | frame.Seen known object}.Finite :=
    (finite_boundObjects (finite_held graph reader)).subset fun _ => boundObject_of_seen tame
  refine ⟨{fact | fact.IsListed → fact ∈ graph.facts reader ∪ frame.origins statement known},
    fun fact said _ => .inl said, fun fact demanded _ => .inr ?_, ?_⟩
  · refine frame.demand_subset_origins statement known (demand_edges ?_ demanded)
    intro place object edge
    rcases edge trivial with said | origin
    · exact ⟨place, object, .inl (.inl ⟨place, said⟩), rfl⟩
    · cases origin with
      | edge flow => exact ⟨place, object, boundObject_of_moves tame flow.moves, rfl⟩
  · refine ((List.finite_toSet graph.listing).union (finite_origins finite statement)).subset ?_
    rintro fact ⟨within, isListed⟩
    rcases within isListed with said | origin
    · exact .inl (Graph.mem_listing said isListed)
    · exact .inr ⟨origin, isListed⟩

end Frame

end ObjectFlow
