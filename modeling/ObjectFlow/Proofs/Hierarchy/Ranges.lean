import ObjectFlow.Evaluation.Basic
import ObjectFlow.Proofs.Hierarchy.Inheritance

/-!
# Questions that have answers

A question about a type that the table has is answered, and the types, fields
and methods in the answer are in their tables again.  A type without a method
for a selector is one for which no class above it declares such a method.
-/

namespace ObjectFlow

namespace Hierarchy

def HasType (hierarchy : Hierarchy) (type : TypeId) : Prop :=
  type < hierarchy.table.types.length

variable {hierarchy : Hierarchy} {type : TypeId}

/-! ## Types -/

theorem HasType.of_kind? {kind : TypeKind} (found : hierarchy.kind? type = some kind) :
    hierarchy.HasType type :=
  TypeTable.lt_length_of_kind? found

theorem HasType.of_lookupType {name : String} (found : hierarchy.lookupType name = some type) :
    hierarchy.HasType type :=
  TypeTable.lt_length_of_find? found

theorem Linked.hasType_object (linked : hierarchy.Linked) :
    hierarchy.HasType TypeTable.objectType := by
  obtain ⟨_, isClass⟩ := Option.isSome_iff_exists.mp linked.table.object
  exact TypeTable.lt_length_of_classInfo? isClass

theorem HasType.exists_kind? (here : hierarchy.HasType type) :
    ∃ kind, hierarchy.kind? type = some kind := by
  unfold kind? TypeTable.kind?
  rw [List.getElem?_eq_getElem here]
  exact ⟨_, rfl⟩

theorem HasType.exists_typeName? (here : hierarchy.HasType type) :
    ∃ name, hierarchy.typeName? type = some name := by
  unfold typeName? TypeTable.typeName?
  rw [List.getElem?_eq_getElem here]
  exact ⟨_, rfl⟩

theorem HasType.exists_isReference? (here : hierarchy.HasType type) :
    ∃ answer, hierarchy.isReference? type = some answer := by
  obtain ⟨kind, isKind⟩ := here.exists_kind?
  exact ⟨kind.isReference, by rw [isReference?, isKind, Option.map_some]⟩

theorem HasType.exists_isArray? (here : hierarchy.HasType type) :
    ∃ answer, hierarchy.isArray? type = some answer := by
  obtain ⟨kind, isKind⟩ := here.exists_kind?
  exact ⟨kind.isArray, by rw [isArray?, isKind, Option.map_some]⟩

theorem Linked.exists_elementType? (linked : hierarchy.Linked) (here : hierarchy.HasType type) :
    ∃ element, hierarchy.elementType? type = some element ∧
      ∀ inner, element = some inner → hierarchy.HasType inner := by
  obtain ⟨kind, isKind⟩ := here.exists_kind?
  refine ⟨kind.element?, by rw [elementType?, isKind, Option.map_some], fun inner isInner => ?_⟩
  cases kind with
  | array element =>
      cases isInner
      exact linked.table.elements type _ isKind
  | primitive _ => cases isInner
  | declared _ => cases isInner

theorem HasType.exists_classInitializersFor? (here : hierarchy.HasType type) :
    ∃ initializers, hierarchy.classInitializersFor? type = some initializers := by
  obtain ⟨kind, isKind⟩ := here.exists_kind?
  unfold classInitializersFor?
  rw [isKind]
  exact ⟨_, rfl⟩

/-! ## Members -/

theorem Linked.hasType_of_field? (linked : hierarchy.Linked) {id : FieldId} {field : Field}
    (found : hierarchy.field? id = some field) :
    hierarchy.HasType field.type ∧ hierarchy.HasType field.declaring := by
  obtain ⟨isType, _, isClass, _⟩ := linked.table.fields id field found
  exact ⟨isType, TypeTable.lt_length_of_classInfo? isClass⟩

theorem Linked.hasType_of_method? (linked : hierarchy.Linked) {id : MethodId} {method : Method}
    (found : hierarchy.method? id = some method) : hierarchy.HasType method.declaring := by
  obtain ⟨_, isClass, _⟩ := linked.table.methods id method found
  exact TypeTable.lt_length_of_classInfo? isClass

theorem Linked.names_of_method? (linked : hierarchy.Linked) {id : MethodId} {method : Method}
    (found : hierarchy.method? id = some method) : hierarchy.Names id := by
  obtain ⟨className, isName⟩ := (linked.hasType_of_method? found).exists_typeName?
  exact ⟨_, by rw [describeMethod?, found, Option.bind_eq_bind, Option.bind_some, isName]; rfl⟩

theorem Linked.exists_instanceFields? (linked : hierarchy.Linked) (here : hierarchy.HasType type) :
    ∃ fields, hierarchy.instanceFields? type = some fields ∧
      ∀ id ∈ fields, ∃ field, hierarchy.field? id = some field := by
  obtain ⟨kind, isKind⟩ := here.exists_kind?
  obtain ⟨fields, found⟩ : ∃ fields, hierarchy.instanceFields? type = some fields := by
    unfold instanceFields?
    rw [isKind]
    exact ⟨_, rfl⟩
  refine ⟨fields, found, fun id listed => ?_⟩
  obtain ⟨field, isField, _⟩ := linked.isSubtype?_of_instanceField found listed
  exact ⟨field, isField⟩

theorem Linked.exists_referenceKeys? (linked : hierarchy.Linked) {fields : List FieldId}
    (all : ∀ id ∈ fields, ∃ field, hierarchy.field? id = some field) :
    ∃ keys, Frame.referenceKeys? hierarchy fields = some keys := by
  induction fields with
  | nil => exact ⟨[], rfl⟩
  | cons id fields ih =>
      obtain ⟨field, isField⟩ := all id List.mem_cons_self
      obtain ⟨keep, isKeep⟩ := (linked.hasType_of_field? isField).1.exists_isReference?
      obtain ⟨keys, isKeys⟩ := ih fun other member => all other (List.mem_cons_of_mem _ member)
      unfold Frame.referenceKeys?
      rw [isField, Option.bind_eq_bind, Option.bind_some, isKeep, Option.bind_eq_bind,
        Option.bind_some, isKeys]
      exact ⟨_, rfl⟩

theorem mem_referenceKeys? {fields : List FieldId} {keys : List FieldKey}
    (found : Frame.referenceKeys? hierarchy fields = some keys) {key : FieldKey}
    (member : key ∈ keys) : ∃ id ∈ fields, key = .named id := by
  induction fields generalizing keys with
  | nil =>
      cases found
      cases member
  | cons id fields ih =>
      obtain ⟨field, _, found⟩ := Option.bind_eq_some_iff.mp found
      obtain ⟨keep, _, found⟩ := Option.bind_eq_some_iff.mp found
      obtain ⟨others, isOthers, found⟩ := Option.bind_eq_some_iff.mp found
      cases found
      cases keep with
      | false =>
          obtain ⟨other, listed, same⟩ := ih isOthers member
          exact ⟨other, List.mem_cons_of_mem _ listed, same⟩
      | true =>
          rcases List.mem_cons.mp member with rfl | member
          · exact ⟨id, List.mem_cons_self, rfl⟩
          · obtain ⟨other, listed, same⟩ := ih isOthers member
            exact ⟨other, List.mem_cons_of_mem _ listed, same⟩

/-! ## Implementations -/

/-- A concrete method with the selector that objects of the type have: one that a class above
declares, or for an array `Object`. -/
def Provides (hierarchy : Hierarchy) (type : TypeId) (selector : Selector) : Prop :=
  ∃ id method, hierarchy.method? id = some method ∧ method.implements selector = true ∧
    (hierarchy.Above type method.declaring ∨
      hierarchy.isArray? type = some true ∧ method.declaring = TypeTable.objectType)

theorem HasType.exists_resolveMethod? (here : hierarchy.HasType type) (selector : Selector) :
    ∃ answer, hierarchy.resolveMethod? type selector = some answer := by
  obtain ⟨kind, isKind⟩ := here.exists_kind?
  unfold resolveMethod?
  rw [isKind]
  cases kind <;> exact ⟨_, rfl⟩

private theorem classInfo?_of_kind? {kind : TypeKind} (isKind : hierarchy.kind? type = some kind) :
    hierarchy.table.classInfo? type = kind.classInfo? := by
  rw [TypeTable.classInfo?, show hierarchy.table.kind? type = some kind from isKind,
    Option.bind_some]

private theorem classInfo?_of_above {sup : TypeId} (isNone : hierarchy.table.classInfo? type = none)
    (above : hierarchy.Above type sup) : hierarchy.table.classInfo? sup = none := by
  rcases above.cases_head with rfl | ⟨next, isSuper, _⟩
  · exact isNone
  · rw [superclass?, isNone] at isSuper
    cases isSuper

theorem Linked.not_provides (linked : hierarchy.Linked) {selector : Selector}
    (missing : hierarchy.resolveMethod? type selector = some none) :
    ¬ hierarchy.Provides type selector := by
  rintro ⟨id, method, isMethod, implements, above⟩
  obtain ⟨info, isClass, listed⟩ := linked.table.methods id method isMethod
  obtain ⟨kind, isKind, missing⟩ := Option.bind_eq_some_iff.mp missing
  have absent : ∀ start, ((hierarchy.lineage start).findSome? fun classInfo =>
      classInfo.methods.find? fun id => (hierarchy.method? id).any (·.implements selector)) =
        none → ¬ hierarchy.Above start method.declaring := by
    intro start none above
    have here := List.findSome?_eq_none_iff.mp none info (mem_lineage above isClass)
    have refused := List.find?_eq_none.mp here id listed
    simp [isMethod, implements] at refused
  cases kind with
  | declared _ =>
      refine absent type (Option.some.inj missing) (above.resolve_right fun ⟨isArray, _⟩ => ?_)
      simp [isArray?, isKind, TypeKind.isArray] at isArray
  | array _ =>
      refine absent TypeTable.objectType (Option.some.inj missing) ?_
      rcases above with above | ⟨_, same⟩
      · cases isClass.symm.trans (classInfo?_of_above (classInfo?_of_kind? isKind) above)
      · exact same ▸ .refl
  | primitive _ =>
      rcases above with above | ⟨isArray, _⟩
      · cases isClass.symm.trans (classInfo?_of_above (classInfo?_of_kind? isKind) above)
      · simp [isArray?, isKind, TypeKind.isArray] at isArray

/-! ## Subtypes -/

private theorem Linked.exists_subtypeWithin (linked : hierarchy.Linked) (depth : Nat)
    {sub sup : TypeId} (isSub : hierarchy.HasType sub) (isSup : hierarchy.HasType sup) :
    ∃ answer, hierarchy.subtypeWithin depth sub sup = some answer := by
  induction depth generalizing sub sup with
  | zero => exact ⟨false, rfl⟩
  | succ depth ih =>
      unfold subtypeWithin
      split
      · exact ⟨true, rfl⟩
      · obtain ⟨kind, isKind⟩ := isSub.exists_kind?
        obtain ⟨other, isOther⟩ := isSup.exists_kind?
        simp only [isKind, isOther, Option.bind_eq_bind, Option.bind_some]
        split
        · exact ⟨false, rfl⟩
        · exact ⟨false, rfl⟩
        · next element element' =>
            have here := linked.table.elements sub element isKind
            have there := linked.table.elements sup element' isOther
            obtain ⟨answer, isAnswer⟩ := HasType.exists_isReference? here
            obtain ⟨answer', isAnswer'⟩ := HasType.exists_isReference? there
            simp only [isAnswer, isAnswer', Option.bind_some]
            split
            · exact ih here there
            · exact ⟨false, rfl⟩
        · exact ⟨_, rfl⟩

theorem Linked.exists_isSubtype? (linked : hierarchy.Linked) {sub sup : TypeId}
    (isSub : hierarchy.HasType sub) (isSup : hierarchy.HasType sup) :
    ∃ answer, hierarchy.isSubtype? sub sup = some answer :=
  linked.exists_subtypeWithin _ isSub isSup

private theorem Linked.exists_avoids? (linked : hierarchy.Linked) (here : hierarchy.HasType type)
    {excluded : List TypeId} (all : ∀ other ∈ excluded, hierarchy.HasType other) :
    ∃ answer, TypeFilter.avoids? hierarchy type excluded = some answer := by
  induction excluded with
  | nil => exact ⟨true, rfl⟩
  | cons other excluded ih =>
      obtain ⟨answer, isAnswer⟩ := linked.exists_isSubtype? here (all other List.mem_cons_self)
      unfold TypeFilter.avoids?
      rw [isAnswer]
      cases answer with
      | true => exact ⟨false, rfl⟩
      | false => exact ih fun another member => all another (List.mem_cons_of_mem _ member)

theorem Linked.exists_accepts? (linked : hierarchy.Linked) (here : hierarchy.HasType type)
    {filter : TypeFilter} (isType : hierarchy.HasType filter.type)
    (excluded : ∀ other ∈ filter.excluded, hierarchy.HasType other) :
    ∃ answer, filter.accepts? hierarchy type = some answer := by
  obtain ⟨answer, isAnswer⟩ := linked.exists_isSubtype? here isType
  unfold TypeFilter.accepts?
  rw [isAnswer]
  cases answer with
  | false => exact ⟨false, rfl⟩
  | true => exact linked.exists_avoids? here excluded

end Hierarchy

end ObjectFlow
