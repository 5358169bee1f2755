import ObjectFlow.Proofs.Evaluation.Transfer
import ObjectFlow.Proofs.Hierarchy.Interfaces
import ObjectFlow.Proofs.Hierarchy.Ranges

/-!
# Slots that are guarded and slots that are copied

A load or store asks the subtypes whether an object has a field.  What is copied
from object to object is taken from the list of the fields that the superclasses
declare.  Both mean the same fields but for those of a type that is met through
interfaces alone: they can be written, and are not copied.
-/

namespace ObjectFlow

namespace Hierarchy

variable {hierarchy : Hierarchy} {type : TypeId} {fields : List FieldId}

/-! ## Fields of a class -/

theorem Linked.mem_instanceFields?_iff (linked : hierarchy.Linked)
    (found : hierarchy.instanceFields? type = some fields) {id : FieldId} {field : Field}
    (isField : hierarchy.field? id = some field) (isInstance : field.isStatic = false) :
    id ∈ fields ↔ hierarchy.Above type field.declaring := by
  obtain ⟨_, _, same⟩ := Option.bind_eq_some_iff.mp found
  cases same
  constructor
  · intro member
    obtain ⟨info, isInfo, listed⟩ := List.mem_flatMap.mp member
    obtain ⟨_, sup, _, isClass, above⟩ := mem_lineageWithin isInfo
    obtain ⟨other, isOther, rfl⟩ :=
      (linked.table.classes sup info isClass).fields.held id (List.mem_filter.mp listed).1
    cases isField.symm.trans isOther
    exact above
  · intro above
    obtain ⟨_, info, isClass, listed⟩ := linked.table.fields id field isField
    refine List.mem_flatMap.mpr ⟨info, mem_lineage above isClass, List.mem_filter.mpr ⟨listed, ?_⟩⟩
    simp [isField, isInstance]

private theorem Walks.nodup_fields (linked : hierarchy.Linked) (once : hierarchy.table.ListsOnce)
    {visit : ClassInfo → Option Unit} {visited : List ClassInfo} {answer : Option Unit}
    (ends : ChainEnds hierarchy.superclass? type)
    (walks : hierarchy.Walks visit type visited answer) (kept : FieldId → Bool) :
    (visited.flatMap fun info => info.fields.filter kept).Nodup := by
  have own : ∀ {type info}, hierarchy.table.classInfo? type = some info →
      (info.fields.filter kept).Nodup := fun isClass => (once _ _ isClass).1.filter _
  induction walks with
  | outside _ => exact List.nodup_nil
  | found isClass _ => simpa using own isClass
  | top isClass _ _ => simpa using own isClass
  | @up type sup info visited answer isClass _ isSuper walks ih =>
      have isNext : hierarchy.superclass? type = some sup := by simp [superclass?, isClass, isSuper]
      have next : hierarchy.Above type sup := .single isNext
      rw [List.flatMap_cons]
      refine (own isClass).append (ih (next.chainEnds ends)) ?_
      intro id here there
      obtain ⟨other, member, listed⟩ := List.mem_flatMap.mp there
      rw [walks.eq_lineageWithin] at member
      obtain ⟨_, declaring, _, isOther, above⟩ := mem_lineageWithin member
      obtain ⟨field, isField, declares⟩ := (linked.table.classes type info isClass).fields.held id
        (List.mem_filter.mp here).1
      obtain ⟨_, isField', declares'⟩ :=
        (linked.table.classes declaring other isOther).fields.held id (List.mem_filter.mp listed).1
      cases isField.symm.trans isField'
      rw [← declares', declares] at above
      exact not_above_next ends isNext above

private theorem count_referenceKeys? {keys : List FieldKey}
    (found : Frame.referenceKeys? hierarchy fields = some keys) {id : FieldId} {field : Field}
    (isField : hierarchy.field? id = some field) :
    keys.count (.named id) =
      if hierarchy.isReference? field.type = some true then fields.count id else 0 := by
  induction fields generalizing keys with
  | nil => cases found; simp
  | cons other fields ih =>
      obtain ⟨entry, isEntry, found⟩ := Option.bind_eq_some_iff.mp found
      obtain ⟨keep, isKeep, found⟩ := Option.bind_eq_some_iff.mp found
      obtain ⟨others, isOthers, found⟩ := Option.bind_eq_some_iff.mp found
      cases found
      have rest := ih isOthers
      by_cases same : other = id
      · subst same
        cases isField.symm.trans isEntry
        cases keep <;> simp [isKeep, rest]
      · cases keep <;> simp [same, rest]

private theorem nodup_instanceFields? (linked : hierarchy.Linked) (once : hierarchy.table.ListsOnce)
    (root : hierarchy.superclass? TypeTable.objectType = none) {name : String}
    (isName : hierarchy.typeName? type = some name) (ends : ChainEnds hierarchy.superclass? type)
    (found : hierarchy.instanceFields? type = some fields) : fields.Nodup := by
  obtain ⟨visited, walks, isAnswer, _⟩ := ((queriesEnd_iff isName root).mpr ends).all
  cases found.symm.trans isAnswer
  exact walks.nodup_fields linked once ends _

end Hierarchy

namespace Frame

variable {frame : Frame} {state : EvalState} {object : ObjectId} {known : HeapObject}

private theorem holdsField_eq (named : state.graph.object? object = some known) {id : FieldId}
    {field : Field} (isField : frame.hierarchy.field? id = some field) {guard : Bool}
    (isGuard : frame.hierarchy.isSubtype? known.type field.declaring = some guard) :
    frame.holdsField object (.named id) state = (.ok guard, state) := by
  rw [holdsField_run frame _ named, hasSlot?, isField, Option.bind_some, isGuard]
  rfl

private theorem referenceFields_eq (named : state.graph.object? object = some known)
    {info : ClassInfo} (isClass : frame.hierarchy.table.classInfo? known.type = some info)
    {fields : List FieldId} (isFields : frame.hierarchy.instanceFields? known.type = some fields)
    {keys : List FieldKey} (isKeys : referenceKeys? frame.hierarchy fields = some keys) :
    frame.referenceFields object state = (.ok keys, state) := by
  have isKind : frame.hierarchy.kind? known.type = some (.declared info) :=
    TypeTable.kind?_of_classInfo? isClass
  rw [referenceFields_run frame named, slots?, isKind, Option.bind_some, isFields, Option.bind_some,
    isKeys]
  rfl

end Frame

/-! ## Agreement -/

namespace Declaration

/-- The guard of loads and stores lets an object of a class have the instance fields of the class,
each of which is listed once, and those of the types that it is met through interfaces alone.  What
is copied are the former, as far as they can hold references.  In a hierarchy that keeps classes and
interfaces apart the latter are fields of interfaces. -/
theorem guard_agrees_with_fields {program : Program} {hierarchy : Hierarchy}
    (built : program.hierarchy = .ok hierarchy) {type : TypeId} {name : String}
    (isName : hierarchy.typeName? type = some name) (free : ¬program.Circles name)
    (isClass : (hierarchy.table.classInfo? type).isSome) {id : FieldId} {field : ObjectFlow.Field}
    (isField : hierarchy.field? id = some field) (isInstance : field.isStatic = false) :
    ∃ fields guard, hierarchy.instanceFields? type = some fields ∧
      hierarchy.isSubtype? type field.declaring = some guard ∧
      (guard = true ↔ id ∈ fields ∨ hierarchy.ThroughInterface type field.declaring) ∧
      (id ∈ fields → fields.count id = 1 ∧ ¬hierarchy.ThroughInterface type field.declaring) ∧
      (hierarchy.Separated → (∀ info, hierarchy.table.classInfo? field.declaring = some info →
        info.isInterface = false) → ¬hierarchy.ThroughInterface type field.declaring) ∧
      ∀ (frame : Frame) (state : EvalState) (object : ObjectId) (known : HeapObject),
        frame.hierarchy = hierarchy → state.graph.object? object = some known →
        known.type = type → ∃ keys,
          frame.holdsField object (.named id) state = (.ok guard, state) ∧
          frame.referenceFields object state = (.ok keys, state) ∧
          keys.count (.named id) =
            if hierarchy.isReference? field.type = some true then fields.count id else 0 := by
  have linked := hierarchy_linked built
  have ends := (chainEnds_hierarchy_iff built isName).mpr free
  obtain ⟨info, isInfo⟩ := Option.isSome_iff_exists.mp isClass
  have here : hierarchy.HasType type := TypeTable.lt_length_of_classInfo? isInfo
  obtain ⟨fields, isFields, known⟩ := linked.exists_instanceFields? here
  obtain ⟨guard, isGuard⟩ := linked.exists_isSubtype? here (linked.hasType_of_field? isField).2
  obtain ⟨keys, isKeys⟩ := linked.exists_referenceKeys? known
  have listed := linked.mem_instanceFields?_iff isFields isField isInstance
  have nodup := Hierarchy.nodup_instanceFields? linked (listsOnce_hierarchy built)
    (superclass?_objectType built) isName ends isFields
  refine ⟨fields, guard, isFields, isGuard, ?_, fun member => ⟨?_, fun through => ?_⟩,
    fun separated proper => ?_, ?_⟩
  · have guarded : hierarchy.isSubtype? type field.declaring = some true ↔
        hierarchy.table.Inherits type field.declaring :=
      isSubtype?_class_iff built isName isClass free
    rw [isGuard, Option.some.injEq] at guarded
    rw [guarded, listed, Hierarchy.ThroughInterface]
    refine ⟨fun inherits => ?_, ?_⟩
    · exact (em _).imp_right fun missed => ⟨inherits, missed⟩
    · rintro (above | ⟨inherits, _⟩)
      · exact above.inherits
      · exact inherits
  · exact List.count_eq_one_of_mem nodup member
  · exact through.2 (listed.mp member)
  · obtain ⟨_, declaring, isDeclaring, _⟩ := linked.table.fields id field isField
    exact not_throughInterface built isName free isDeclaring (proper declaring isDeclaring)
      separated
  · rintro frame state object known rfl named rfl
    exact ⟨keys, Frame.holdsField_eq named isField isGuard,
      Frame.referenceFields_eq named isInfo isFields isKeys,
      Hierarchy.count_referenceKeys? isKeys isField⟩

def shadowingClasses : Program :=
  ⟨"Base.run",
    [⟨"Base", none, none, false, [.field ⟨"next", "Leaf", false⟩]⟩,
      ⟨"Leaf", some "Base", none, false, [.field ⟨"next", "Leaf", false⟩]⟩]⟩

theorem guard_agrees_with_fields_shadowing :
    ∃ (frame : Frame) (state : EvalState) (fields : List FieldId) (keys : List FieldKey),
      shadowingClasses.hierarchy = .ok frame.hierarchy ∧ frame.hierarchy.Separated ∧
      frame.hierarchy.typeName? 11 = some "Leaf" ∧ state.graph.objectType? 0 = some 11 ∧
      frame.hierarchy.instanceFields? 11 = some fields ∧ fields.count 0 = 1 ∧
      frame.holdsField 0 (.named 0) state = (.ok true, state) ∧
      frame.referenceFields 0 state = (.ok keys, state) ∧ keys.count (.named 0) = 1 := by
  let known : HeapObject := .ofSite ⟨1, 0, 11, .new⟩ .empty
  let state : EvalState := ⟨(Graph.object known (.empty .hashed)).2, ⟨0, 0⟩, ∅⟩
  have facts : shadowingClasses.hierarchy.toOption.map (fun hierarchy =>
      ((hierarchy.typeName? 11, (hierarchy.table.classInfo? 11).isSome,
          decide hierarchy.Separated),
        hierarchy.field? 0, hierarchy.instanceFields? 11, hierarchy.isReference? 11)) =
      some ((some "Leaf", true, true), some ⟨10, "next", 11, false⟩, some [1, 0], some true) := by
    decide +kernel
  obtain ⟨hierarchy, isHierarchy, holds⟩ := Option.map_eq_some_iff.mp facts
  simp only [Prod.mk.injEq] at holds
  obtain ⟨⟨isName, isClass, separated⟩, isField, isFields, isReference⟩ := holds
  have built := toOption_eq_some.mp isHierarchy
  have path : Relation.ReflTransGen (fun a b => shadowingClasses.superclass? a = some b) "Leaf"
      "Object" :=
    .head (b := "Base") (by decide +kernel) (.single (by decide +kernel))
  have free : ¬shadowingClasses.Circles "Leaf" :=
    ChainEnds.not_circles ⟨"Object", path, by decide +kernel⟩
  let frame : Frame :=
    ⟨⟨hierarchy, ∅, ⟨.empty, []⟩, [], [], 0, []⟩, ⟨.insensitive, false⟩, .empty, 0, 0⟩
  obtain ⟨fields, guard, isFields', isGuard, guarded, once, _, slots⟩ :=
    guard_agrees_with_fields built isName free isClass isField rfl
  cases isFields.symm.trans isFields'
  obtain ⟨keys, holdsField, isKeys, count⟩ := slots frame state 0 known rfl rfl rfl
  have isTrue : guard = true := guarded.mpr (.inl (by decide))
  refine ⟨frame, state, _, keys, built, of_decide_eq_true separated, isName, rfl, isFields, rfl,
    isTrue ▸ holdsField, isKeys, ?_⟩
  rw [count, if_pos isReference]
  rfl

def interfaceField : Program :=
  ⟨"Leaf.run",
    [⟨"Sized", none, none, true, [.field ⟨"next", "Leaf", false⟩]⟩,
      ⟨"Leaf", none, some "Sized", false, []⟩]⟩

theorem guard_disagrees_with_fields : ∃ hierarchy, interfaceField.hierarchy = .ok hierarchy ∧
    (∀ name, ¬interfaceField.Circles name) ∧ (hierarchy.table.classInfo? 11).isSome ∧
    hierarchy.field? 0 = some ⟨10, "next", 11, false⟩ ∧
    hierarchy.isSubtype? 11 10 = some true ∧ hierarchy.instanceFields? 11 = some [] := by
  have facts : interfaceField.hierarchy.toOption.map (fun hierarchy =>
      ((hierarchy.table.classInfo? 11).isSome, hierarchy.field? 0, hierarchy.isSubtype? 11 10,
        hierarchy.instanceFields? 11)) =
      some (true, some ⟨10, "next", 11, false⟩, some true, some []) := by decide +kernel
  obtain ⟨hierarchy, isHierarchy, known⟩ := Option.map_eq_some_iff.mp facts
  simp only [Prod.mk.injEq] at known
  exact ⟨hierarchy, toOption_eq_some.mp isHierarchy, not_circles_of_flat (by decide) (by decide),
    known⟩

end Declaration

end ObjectFlow
