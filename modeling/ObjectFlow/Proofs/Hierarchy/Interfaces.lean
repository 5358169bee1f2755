import ObjectFlow.Proofs.Hierarchy.Chains
import ObjectFlow.Proofs.Hierarchy.Subtyping

/-!
# Supertypes by way of interfaces

A class is a subtype of all that can be reached through superclasses and
interfaces, but its members are looked for along its superclasses only.  The two
part where a class is reached through an interface alone.  Nothing keeps that
from happening: a class may be listed as an interface, and an interface may
extend a class.  A hierarchy in which neither is done has classes proper among
the supertypes of a class only where its superclasses are.
-/

namespace ObjectFlow

namespace Hierarchy

variable {hierarchy : Hierarchy} {type sub sup : TypeId}

/-! ## Chains that end -/

theorem not_above_next (ends : ChainEnds hierarchy.superclass? sub)
    (isSuper : hierarchy.superclass? sub = some sup) : ¬hierarchy.Above sup sub :=
  fun back => ends.not_circles ⟨sub, .refl, .head' isSuper back⟩

theorem Above.antisymm (ends : ChainEnds hierarchy.superclass? sub)
    (above : hierarchy.Above sub sup) (back : hierarchy.Above sup sub) : sub = sup := by
  rcases above.cases_head with same | ⟨next, isNext, above⟩
  · exact same
  · exact absurd (above.trans back) (not_above_next ends isNext)

theorem Above.chainEnds (above : hierarchy.Above sub sup)
    (ends : ChainEnds hierarchy.superclass? sub) : ChainEnds hierarchy.superclass? sup := by
  have rightUnique : Relator.RightUnique fun a b => hierarchy.superclass? a = some b :=
    fun _ _ _ isNext isNext' => Option.some.inj (isNext.symm.trans isNext')
  obtain ⟨last, path, isLast⟩ := ends
  rcases Relation.ReflTransGen.total_of_right_unique rightUnique above path with path | path
  · exact ⟨last, path, isLast⟩
  · rcases path.cases_head with rfl | ⟨_, isNext, _⟩
    · exact ⟨last, .refl, isLast⟩
    · rw [isLast] at isNext
      cases isNext

/-! ## Classes and interfaces -/

/-- The class is a supertype, but none of the superclasses. -/
def ThroughInterface (hierarchy : Hierarchy) (sub sup : TypeId) : Prop :=
  hierarchy.table.Inherits sub sup ∧ ¬hierarchy.Above sub sup

structure Separated (hierarchy : Hierarchy) : Prop where
  implemented : ∀ type info, hierarchy.table.classInfo? type = some info →
    ∀ interface ∈ info.interfaces, ∃ other,
      hierarchy.table.classInfo? interface = some other ∧ other.isInterface = true
  extended : ∀ type info, hierarchy.table.classInfo? type = some info →
    info.isInterface = true → ∀ superclass ∈ info.superclass, superclass = TypeTable.objectType

theorem mem_classInfos_iff {info : ClassInfo} :
    info ∈ hierarchy.table.types.filterMap (·.kind.classInfo?) ↔
      ∃ type, hierarchy.table.classInfo? type = some info := by
  rw [List.mem_filterMap]
  constructor
  · rintro ⟨entry, member, isClass⟩
    obtain ⟨type, isEntry⟩ := List.mem_iff_getElem?.mp member
    exact ⟨type, by simp [TypeTable.classInfo?, TypeTable.kind?, isEntry, isClass]⟩
  · rintro ⟨type, isClass⟩
    obtain ⟨kind, isKind, isClass⟩ := Option.bind_eq_some_iff.mp isClass
    obtain ⟨entry, isEntry, rfl⟩ := Option.map_eq_some_iff.mp isKind
    exact ⟨entry, List.mem_of_getElem? isEntry, isClass⟩

theorem separated_iff : hierarchy.Separated ↔
    ∀ info ∈ hierarchy.table.types.filterMap (·.kind.classInfo?),
      (∀ interface ∈ info.interfaces,
        (hierarchy.table.classInfo? interface).any (·.isInterface) = true) ∧
      (info.isInterface = true → info.superclass.all (· = TypeTable.objectType) = true) := by
  simp only [mem_classInfos_iff, Option.any_eq_true, Option.all_eq_true, decide_eq_true_eq]
  constructor
  · rintro separated info ⟨type, isClass⟩
    exact ⟨separated.implemented type info isClass, separated.extended type info isClass⟩
  · intro separated
    exact ⟨fun type info isClass => (separated info ⟨type, isClass⟩).1,
      fun type info isClass => (separated info ⟨type, isClass⟩).2⟩

instance : Decidable hierarchy.Separated := decidable_of_iff _ separated_iff.symm

private theorem Separated.of_interface (separated : hierarchy.Separated)
    (root : hierarchy.table.parents TypeTable.objectType = []) {info : ClassInfo}
    (isClass : hierarchy.table.classInfo? sub = some info) (isInterface : info.isInterface = true)
    (inherits : hierarchy.table.Inherits sub sup) : sup = TypeTable.objectType ∨
      ∃ other, hierarchy.table.classInfo? sup = some other ∧ other.isInterface = true := by
  induction inherits with
  | refl => exact .inr ⟨info, isClass, isInterface⟩
  | tail _ isParent ih =>
      rcases ih with rfl | ⟨other, isOther, isInterface⟩
      · rw [root] at isParent
        cases isParent
      · rw [TypeTable.parents_of_classInfo? isOther] at isParent
        rcases List.mem_append.mp isParent with isSuper | listed
        · exact .inl (separated.extended _ other isOther isInterface _
            (Option.mem_toList.mp isSuper))
        · exact .inr (separated.implemented _ other isOther _ listed)

private theorem Separated.above (separated : hierarchy.Separated)
    (root : hierarchy.table.parents TypeTable.objectType = []) {info : ClassInfo}
    (isClass : hierarchy.table.classInfo? sup = some info) (isProper : info.isInterface = false)
    (top : hierarchy.Above sub TypeTable.objectType)
    (inherits : hierarchy.table.Inherits sub sup) : hierarchy.Above sub sup := by
  induction inherits using Relation.ReflTransGen.head_induction_on with
  | refl => exact .refl
  | @head first second isParent inherits ih =>
      obtain ⟨before, isBefore, listed⟩ := TypeTable.mem_parents_iff.mp isParent
      rcases List.mem_append.mp listed with isSuper | isInterface
      · have isNext : hierarchy.superclass? first = some second := by
          simpa [superclass?, isBefore] using isSuper
        rcases top.cases_head with rfl | ⟨next, isNext', top⟩
        · rw [root] at isParent
          cases isParent
        · cases isNext.symm.trans isNext'
          exact .head isNext (ih top)
      · obtain ⟨other, isOther, isInterface⟩ :=
          separated.implemented first before isBefore second isInterface
        rcases separated.of_interface root isOther isInterface inherits with rfl | ⟨_, same, absurd⟩
        · exact top
        · cases isClass.symm.trans same
          rw [isProper] at absurd
          cases absurd

end Hierarchy

/-! ## Subtypes in accepted programs -/

namespace Declaration

variable {program : Program} {hierarchy : Hierarchy}

theorem parents_objectType (built : program.hierarchy = .ok hierarchy) :
    hierarchy.table.parents TypeTable.objectType = [] := by
  have linked := hierarchy_linked built
  obtain ⟨info, isObject⟩ := Option.isSome_iff_exists.mp linked.table.object
  rw [TypeTable.parents_of_classInfo? isObject]
  exact ((linked.table.classes _ info isObject).root rfl).1

theorem superclass?_objectType (built : program.hierarchy = .ok hierarchy) :
    hierarchy.superclass? TypeTable.objectType = none := by
  refine Option.eq_none_iff_forall_ne_some.mpr fun sup isSuper => ?_
  obtain ⟨info, isObject, isSuper⟩ := Option.bind_eq_some_iff.mp isSuper
  have isParent : sup ∈ hierarchy.table.parents TypeTable.objectType := by
    simp [TypeTable.parents_of_classInfo? isObject, ClassInfo.parents, isSuper]
  rw [parents_objectType built] at isParent
  cases isParent

theorem grounded_hierarchy (built : program.hierarchy = .ok hierarchy) :
    hierarchy.table.Grounded := by
  obtain ⟨operations, _, rfl⟩ := hierarchy_after built
  exact (TypeTable.grounded_after operations).withDefaultSuperclass

theorem listsOnce_hierarchy (built : program.hierarchy = .ok hierarchy) :
    hierarchy.table.ListsOnce := by
  obtain ⟨operations, _, rfl⟩ := hierarchy_after built
  exact (TypeTable.listsOnce_after operations).withDefaultSuperclass

theorem isSubtype?_judged (built : program.hierarchy = .ok hierarchy) {sub sup : TypeId} :
    hierarchy.isSubtype? sub sup = some true ↔ hierarchy.table.Judged sub sup :=
  Hierarchy.isSubtype?_iff_judged (grounded_hierarchy built) (hierarchy_linked built).supertypes

/-- The supertypes of a class are reached through superclasses and interfaces, `Object` as well. -/
theorem isSubtype?_class_iff (built : program.hierarchy = .ok hierarchy) {sub sup : TypeId}
    {name : String} (isName : hierarchy.typeName? sub = some name)
    (isClass : (hierarchy.table.classInfo? sub).isSome) (free : ¬program.Circles name) :
    hierarchy.isSubtype? sub sup = some true ↔ hierarchy.table.Inherits sub sup := by
  rw [isSubtype?_judged built]
  refine ⟨fun judged => ?_, .inherits⟩
  cases judged with
  | inherits inherits => exact inherits
  | object _ => exact ((above_objectType_iff built isName isClass).mpr free).inherits
  | elements isArray => exact absurd isArray (TypeTable.not_array_of_class isClass)

theorem not_throughInterface (built : program.hierarchy = .ok hierarchy) {sub sup : TypeId}
    {name : String} (isName : hierarchy.typeName? sub = some name) (free : ¬program.Circles name)
    {info : ClassInfo} (isClass : hierarchy.table.classInfo? sup = some info)
    (isProper : info.isInterface = false) (separated : hierarchy.Separated) :
    ¬hierarchy.ThroughInterface sub sup := by
  rintro ⟨inherits, missed⟩
  rcases (grounded_hierarchy built).inherits_cases inherits with rfl | ⟨isSub, _⟩
  · exact missed .refl
  · exact missed (separated.above (parents_objectType built) isClass isProper
      ((above_objectType_iff built isName isSub).mpr free) inherits)

theorem not_circles_of_flat (flat : ∀ declared ∈ program.classes, declared.superclass = none)
    (noObject : "Object" ∉ program.classes.map Class.name) (name : String) :
    ¬program.Circles name := by
  have root : program.superclass? "Object" = none := by
    rw [superclass?_of_notMem noObject, if_neg (by decide)]
  have top : ∀ next, program.superclass? name = some next → next = "Object" := by
    intro next isNext
    unfold Program.superclass? at isNext
    split at isNext
    · next declared found =>
        rw [flat declared (List.mem_of_find?_eq_some found)] at isNext
        exact (Option.some.inj isNext).symm
    · split at isNext
      · exact (Option.some.inj isNext).symm
      · cases isNext
  refine ChainEnds.not_circles ?_
  cases isNext : program.superclass? name with
  | none => exact ⟨name, .refl, isNext⟩
  | some next => exact ⟨"Object", .single (by rw [isNext, top next isNext]), root⟩

end Declaration

end ObjectFlow
