import ObjectFlow.Proofs.Hierarchy.Interfaces

/-!
# Dispatch

A call runs the implementation of the nearest class at or above that of the
receiver.  So a class responds to what its superclasses respond to.  What it
meets through interfaces alone it need not respond to, although its objects are
admitted as receivers.
-/

namespace ObjectFlow

theorem Method.implements_iff {method : Method} {selector : Selector} :
    method.implements selector = true ↔ method.isStatic = false ∧ method.isAbstract = false ∧
      method.name = selector.name ∧ method.params.length = selector.arity := by
  cases selector
  simp [implements, Method.selector, and_assoc]

namespace Hierarchy

variable {hierarchy : Hierarchy} {type : TypeId} {selector : Selector}

/-- The method implements the selector, and no class between the start and the one that declares it
has another one that does. -/
structure Nearest (hierarchy : Hierarchy) (start : TypeId) (selector : Selector)
    (method : Method) : Prop where
  implements : method.implements selector = true
  above : hierarchy.Above start method.declaring
  first : ∀ other rival, hierarchy.method? other = some rival →
    rival.implements selector = true → hierarchy.Above start rival.declaring →
    hierarchy.Above method.declaring rival.declaring

theorem dispatchType_of_class (isClass : (hierarchy.table.classInfo? type).isSome) :
    hierarchy.dispatchType type = type := by
  obtain ⟨info, isClass⟩ := Option.isSome_iff_exists.mp isClass
  have isKind : hierarchy.kind? type = some (.declared info) :=
    TypeTable.kind?_of_classInfo? isClass
  simp [dispatchType, isArray?, isKind, TypeKind.isArray]

/-! ## Implementations of a class -/

theorem Linked.ownImplementation?_eq_some (linked : hierarchy.Linked) {info : ClassInfo}
    (isClass : hierarchy.table.classInfo? type = some info) {id : MethodId}
    (found : hierarchy.ownImplementation? selector info = some id) :
    ∃ method, hierarchy.method? id = some method ∧ method.implements selector = true ∧
      method.declaring = type := by
  obtain ⟨method, isMethod, declares⟩ :=
    (linked.table.classes type info isClass).methods.held id (List.mem_of_find?_eq_some found)
  have isMethod : hierarchy.method? id = some method := isMethod
  have implements := List.find?_some found
  rw [isMethod] at implements
  exact ⟨method, isMethod, implements, declares⟩

private theorem Linked.ownImplementation?_eq_none (linked : hierarchy.Linked) {info : ClassInfo}
    (isClass : hierarchy.table.classInfo? type = some info)
    (missed : hierarchy.ownImplementation? selector info = none) {id : MethodId} {method : Method}
    (isMethod : hierarchy.method? id = some method)
    (implements : method.implements selector = true) : method.declaring ≠ type := by
  rintro rfl
  obtain ⟨_, isClass', listed⟩ := linked.table.methods id method isMethod
  cases isClass.symm.trans isClass'
  simpa [isMethod, implements] using List.find?_eq_none.mp missed id listed

private theorem Linked.eq_of_implements (linked : hierarchy.Linked) {id other : MethodId}
    {method rival : Method} (isMethod : hierarchy.method? id = some method)
    (isRival : hierarchy.method? other = some rival)
    (implements : method.implements selector = true)
    (implements' : rival.implements selector = true)
    (same : method.declaring = rival.declaring) : id = other := by
  obtain ⟨info, isClass, listed⟩ := linked.table.methods id method isMethod
  obtain ⟨_, isClass', listed'⟩ := linked.table.methods other rival isRival
  rw [same] at isClass
  cases isClass.symm.trans isClass'
  exact (linked.table.classes _ info isClass).methods.distinct id listed other listed' method rival
    isMethod isRival ((Method.implements_iff.mp implements).2.2.1.trans
      (Method.implements_iff.mp implements').2.2.1.symm)

/-! ## Walks -/

private theorem Walks.nearest (linked : hierarchy.Linked) {visited : List ClassInfo}
    {answer : Option MethodId}
    (walks : hierarchy.Walks (hierarchy.ownImplementation? selector) type visited answer) :
    (∀ id, answer = some id →
      ∃ method, hierarchy.method? id = some method ∧ hierarchy.Nearest type selector method) ∧
    (answer = none → ∀ id method, hierarchy.method? id = some method →
      method.implements selector = true → ¬hierarchy.Above type method.declaring) := by
  induction walks with
  | outside noClass =>
      refine ⟨fun _ same => (by cases same), fun _ id method isMethod _ above => ?_⟩
      obtain ⟨_, isClass, _⟩ := linked.table.methods id method isMethod
      rcases above.cases_head with rfl | ⟨_, isSuper, _⟩
      · cases noClass.symm.trans isClass
      · simp [superclass?, noClass] at isSuper
  | found isClass isFound =>
      refine ⟨fun id same => ?_, fun isNone => (by cases isNone)⟩
      cases same
      obtain ⟨method, isMethod, implements, rfl⟩ :=
        linked.ownImplementation?_eq_some isClass isFound
      exact ⟨method, isMethod, implements, .refl, fun _ _ _ _ above => above⟩
  | top isClass missed isTop =>
      refine ⟨fun _ same => (by cases same), fun _ id method isMethod implements above => ?_⟩
      rcases above.cases_head with same | ⟨_, isSuper, _⟩
      · exact linked.ownImplementation?_eq_none isClass missed isMethod implements same.symm
      · simp [superclass?, isClass, isTop] at isSuper
  | @up type sup info visited answer isClass missed isSuper _ ih =>
      have isNext : hierarchy.superclass? type = some sup := by simp [superclass?, isClass, isSuper]
      have beyond : ∀ {id method}, hierarchy.method? id = some method →
          method.implements selector = true → hierarchy.Above type method.declaring →
          hierarchy.Above sup method.declaring := by
        intro id method isMethod implements above
        rcases above.cases_head with same | ⟨_, isNext', above⟩
        · exact absurd same.symm
            (linked.ownImplementation?_eq_none isClass missed isMethod implements)
        · cases isNext.symm.trans isNext'
          exact above
      refine ⟨fun id same => ?_, fun isNone id method isMethod implements above =>
        ih.2 isNone id method isMethod implements (beyond isMethod implements above)⟩
      obtain ⟨method, isMethod, nearest⟩ := ih.1 id same
      exact ⟨method, isMethod, nearest.implements, .head isNext nearest.above,
        fun other rival isRival implements above =>
          nearest.first other rival isRival implements (beyond isRival implements above)⟩

private theorem Nearest.unique (linked : hierarchy.Linked)
    (ends : ChainEnds hierarchy.superclass? type) {id other : MethodId} {method rival : Method}
    (isMethod : hierarchy.method? id = some method) (isRival : hierarchy.method? other = some rival)
    (nearest : hierarchy.Nearest type selector method)
    (nearest' : hierarchy.Nearest type selector rival) : id = other := by
  refine linked.eq_of_implements isMethod isRival nearest.implements nearest'.implements ?_
  exact (nearest.first other rival isRival nearest'.implements nearest'.above).antisymm
    (nearest.above.chainEnds ends)
    (nearest'.first id method isMethod nearest.implements nearest.above)

/-- Dispatch answers with the nearest implementation. -/
theorem Linked.resolveMethod?_nearest (linked : hierarchy.Linked) {name : String}
    (isName : hierarchy.typeName? type = some name)
    (root : hierarchy.superclass? TypeTable.objectType = none)
    (ends : ChainEnds hierarchy.superclass? type) (selector : Selector) :
    ∃ answer, hierarchy.resolveMethod? type selector = some answer ∧
      (∀ id, answer = some id ↔ ∃ method, hierarchy.method? id = some method ∧
        hierarchy.Nearest (hierarchy.dispatchType type) selector method) ∧
      (answer = none ↔ ∀ id method, hierarchy.method? id = some method →
        method.implements selector = true →
        ¬hierarchy.Above (hierarchy.dispatchType type) method.declaring) := by
  obtain ⟨_, answer, walks, isAnswer⟩ :=
    ((queriesEnd_iff isName root).mpr ends).implementation selector
  obtain ⟨nearest, missed⟩ := walks.nearest linked
  refine ⟨answer, isAnswer, fun id => ⟨nearest id, ?_⟩, missed, fun absent => ?_⟩
  · rintro ⟨method, isMethod, isNearest⟩
    cases answer with
    | none =>
        exact absurd isNearest.above (missed rfl id method isMethod isNearest.implements)
    | some own =>
        obtain ⟨rival, isRival, isNearest'⟩ := nearest own rfl
        rw [isNearest'.unique linked (chainEnds_dispatchType root ends) isRival isMethod isNearest]
  · refine Option.eq_none_iff_forall_ne_some.mpr fun id same => ?_
    obtain ⟨method, isMethod, isNearest⟩ := nearest id same
    exact absent id method isMethod isNearest.implements isNearest.above

private theorem Linked.declared_of_resolveMethod? (linked : hierarchy.Linked) {info : ClassInfo}
    (isClass : hierarchy.table.classInfo? type = some info) {id : MethodId}
    (found : hierarchy.resolveMethod? type selector = some (some id)) :
    ∃ method, hierarchy.method? id = some method ∧ method.implements selector = true ∧
      hierarchy.Above type method.declaring := by
  have isKind : hierarchy.kind? type = some (.declared info) :=
    TypeTable.kind?_of_classInfo? isClass
  rw [resolveMethod?_eq isKind, dispatchType_of_class (by simp [isClass])] at found
  obtain ⟨first, member, isFound⟩ := List.exists_of_findSome?_eq_some (Option.some.inj found)
  obtain ⟨_, sup, _, isFirst, above⟩ := mem_lineageWithin member
  obtain ⟨method, isMethod, implements, rfl⟩ := linked.ownImplementation?_eq_some isFirst isFound
  exact ⟨method, isMethod, implements, above⟩

end Hierarchy

/-! ## Receivers -/

namespace Declaration

variable {program : Program} {hierarchy : Hierarchy} {sub sup : TypeId} {name : String}

section Receivers

variable (built : program.hierarchy = .ok hierarchy)
  (isName : hierarchy.typeName? sub = some name) (free : ¬program.Circles name)
  (isClass : (hierarchy.table.classInfo? sup).isSome)

include built isName free isClass

private theorem receiver_cases (isSubtype : hierarchy.isSubtype? sub sup = some true) :
    (hierarchy.table.classInfo? sub).isSome ∧ hierarchy.table.Inherits sub sup ∨
      hierarchy.isArray? sub = some true ∧ sup = TypeTable.objectType := by
  have judged := (isSubtype?_judged built).mp isSubtype
  cases judged with
  | inherits inherits =>
      rcases (grounded_hierarchy built).inherits_cases inherits with rfl | ⟨isClass, _⟩
      · exact .inl ⟨isClass, inherits⟩
      · exact .inl ⟨isClass, inherits⟩
  | object isReference =>
      obtain ⟨kind, isKind, isReference⟩ := isReference
      have isKind : hierarchy.kind? sub = some kind := isKind
      cases kind with
      | primitive _ => cases isReference
      | declared info =>
          have isClass : (hierarchy.table.classInfo? sub).isSome := by
            simp [TypeTable.classInfo?, show hierarchy.table.kind? sub = _ from isKind,
              TypeKind.classInfo?]
          exact .inl ⟨isClass, (isSubtype?_class_iff built isName isClass free).mp isSubtype⟩
      | array element => exact .inr ⟨by simp [Hierarchy.isArray?, isKind, TypeKind.isArray], rfl⟩
  | elements _ isArray => exact absurd isArray (TypeTable.not_array_of_class isClass)

private theorem above_dispatchType (isSubtype : hierarchy.isSubtype? sub sup = some true)
    (direct : ¬hierarchy.ThroughInterface sub sup) :
    hierarchy.Above (hierarchy.dispatchType sub) sup := by
  rcases receiver_cases built isName free isClass isSubtype with
    ⟨isReceiver, inherits⟩ | ⟨isArray, rfl⟩
  · rw [Hierarchy.dispatchType_of_class isReceiver]
    exact of_not_not fun missed => direct ⟨inherits, missed⟩
  · rw [Hierarchy.dispatchType, if_pos isArray]
    exact .refl

end Receivers

/-- A receiver responds to what a class responds to that it is an object of, unless it is so through
interfaces alone, and it does so with the nearest implementation.  A class that is listed as an
interface is met so, and a class that an interface extends; nothing else leads there. -/
theorem dispatch_inherited (built : program.hierarchy = .ok hierarchy)
    (isName : hierarchy.typeName? sub = some name) (free : ¬program.Circles name)
    {info : ClassInfo} (isClass : hierarchy.table.classInfo? sup = some info)
    (isProper : info.isInterface = false) (isSubtype : hierarchy.isSubtype? sub sup = some true)
    {selector : Selector} {id : MethodId}
    (found : hierarchy.resolveMethod? sup selector = some (some id)) :
    ∃ answer, hierarchy.resolveMethod? sub selector = some answer ∧
      (∀ own, answer = some own ↔ ∃ method, hierarchy.method? own = some method ∧
        (method.isStatic = false ∧ method.isAbstract = false ∧ method.name = selector.name ∧
          method.params.length = selector.arity) ∧
        hierarchy.Nearest (hierarchy.dispatchType sub) selector method) ∧
      (answer = none → hierarchy.ThroughInterface sub sup ∧
        ∀ own method, hierarchy.method? own = some method → method.implements selector = true →
          ¬hierarchy.Above sub method.declaring) ∧
      (hierarchy.Separated → ¬hierarchy.ThroughInterface sub sup) := by
  have linked := hierarchy_linked built
  have isSup : (hierarchy.table.classInfo? sup).isSome := by simp [isClass]
  obtain ⟨answer, isAnswer, nearest, missed⟩ :=
    linked.resolveMethod?_nearest isName (superclass?_objectType built)
    ((chainEnds_hierarchy_iff built isName).mpr free) selector
  refine ⟨answer, isAnswer, fun own => ?_, fun isNone => ?_,
    not_throughInterface built isName free isClass isProper⟩
  · rw [nearest]
    refine exists_congr fun method => and_congr_right fun _ => ?_
    rw [← Method.implements_iff]
    exact (and_iff_right_of_imp Hierarchy.Nearest.implements).symm
  · have through : hierarchy.ThroughInterface sub sup := by
      by_contra direct
      obtain ⟨method, isMethod, implements, above⟩ :=
        linked.declared_of_resolveMethod? isClass found
      exact missed.mp isNone id method isMethod implements
        ((above_dispatchType built isName free isSup isSubtype direct).trans above)
    have isReceiver : (hierarchy.table.classInfo? sub).isSome := by
      rcases (grounded_hierarchy built).inherits_cases through.1 with rfl | ⟨isReceiver, _⟩
      · exact isSup
      · exact isReceiver
    have absent := missed.mp isNone
    rw [Hierarchy.dispatchType_of_class isReceiver] at absent
    exact ⟨through, absent⟩

/-- A class whose method a class below inherits past one that is abstract, one that is static and
one that takes an argument. -/
def inheritingClasses : Program :=
  ⟨"Base.run",
    [⟨"Base", none, none, false, [.method ⟨"run", none, false, false, false, []⟩]⟩,
      ⟨"Sketch", some "Base", none, false, [.method ⟨"run", none, false, false, true, []⟩]⟩,
      ⟨"Tool", some "Sketch", none, false, [.method ⟨"run", none, true, false, false, []⟩]⟩,
      ⟨"Leaf", some "Tool", none, false,
        [.method ⟨"run", none, false, false, false, [.param ⟨"next", "Leaf[]"⟩]⟩]⟩]⟩

theorem dispatch_inherited_overloaded : ∃ hierarchy, inheritingClasses.hierarchy = .ok hierarchy ∧
    hierarchy.typeName? 13 = some "Leaf" ∧ hierarchy.isSubtype? 13 10 = some true ∧
    hierarchy.resolveMethod? 10 ⟨"run", 0⟩ = some (some 1) ∧ hierarchy.Separated ∧
    ¬hierarchy.ThroughInterface 13 10 ∧
    ∃ method, hierarchy.method? 1 = some method ∧ hierarchy.Nearest 13 ⟨"run", 0⟩ method := by
  have facts : inheritingClasses.hierarchy.toOption.map (fun hierarchy =>
      ((hierarchy.typeName? 13, (hierarchy.table.classInfo? 10).map ClassInfo.isInterface,
          hierarchy.isSubtype? 13 10),
        hierarchy.resolveMethod? 10 ⟨"run", 0⟩, hierarchy.resolveMethod? 13 ⟨"run", 0⟩,
        decide (hierarchy.dispatchType 13 = 13 ∧ hierarchy.Separated))) =
      some ((some "Leaf", some false, some true), some (some 1), some (some 1), true) := by
    decide +kernel
  obtain ⟨hierarchy, isHierarchy, known⟩ := Option.map_eq_some_iff.mp facts
  simp only [Prod.mk.injEq] at known
  obtain ⟨⟨isName, isProper, isSubtype⟩, found, isOwn, holds⟩ := known
  obtain ⟨start, separated⟩ := of_decide_eq_true holds
  obtain ⟨info, isClass, isProper⟩ := Option.map_eq_some_iff.mp isProper
  have built := toOption_eq_some.mp isHierarchy
  have path : Relation.ReflTransGen (fun a b => inheritingClasses.superclass? a = some b) "Leaf"
      "Object" :=
    .head (b := "Tool") (by decide +kernel) (.head (b := "Sketch") (by decide +kernel)
      (.head (b := "Base") (by decide +kernel) (.single (by decide +kernel))))
  have free : ¬inheritingClasses.Circles "Leaf" :=
    ChainEnds.not_circles ⟨"Object", path, by decide +kernel⟩
  obtain ⟨answer, isAnswer, nearest, _, direct⟩ :=
    dispatch_inherited built isName free isClass isProper isSubtype found
  cases isOwn.symm.trans isAnswer
  obtain ⟨method, isMethod, _, isNearest⟩ := (nearest 1).mp rfl
  rw [start] at isNearest
  exact ⟨hierarchy, built, isName, isSubtype, found, separated, direct separated, method, isMethod,
    isNearest⟩

def implementedClass : Program :=
  ⟨"Base.run",
    [⟨"Base", none, none, false, [.method ⟨"run", none, false, false, false, []⟩]⟩,
      ⟨"Leaf", none, some "Base", false, []⟩]⟩

theorem dispatch_not_inherited : ∃ hierarchy, implementedClass.hierarchy = .ok hierarchy ∧
    (∀ name, ¬implementedClass.Circles name) ∧
    (hierarchy.table.classInfo? 10).map ClassInfo.isInterface = some false ∧
    (hierarchy.table.classInfo? 11).isSome ∧ hierarchy.isSubtype? 11 10 = some true ∧
    hierarchy.resolveMethod? 10 ⟨"run", 0⟩ = some (some 1) ∧
    hierarchy.resolveMethod? 11 ⟨"run", 0⟩ = some none := by
  have facts : implementedClass.hierarchy.toOption.map (fun hierarchy =>
      (((hierarchy.table.classInfo? 10).map ClassInfo.isInterface,
          (hierarchy.table.classInfo? 11).isSome, hierarchy.isSubtype? 11 10),
        hierarchy.resolveMethod? 10 ⟨"run", 0⟩, hierarchy.resolveMethod? 11 ⟨"run", 0⟩)) =
      some ((some false, true, some true), some (some 1), some none) := by decide +kernel
  obtain ⟨hierarchy, isHierarchy, known⟩ := Option.map_eq_some_iff.mp facts
  simp only [Prod.mk.injEq] at known
  obtain ⟨⟨isProper, isClass, isSubtype⟩, found, missed⟩ := known
  exact ⟨hierarchy, toOption_eq_some.mp isHierarchy, not_circles_of_flat (by decide) (by decide),
    isProper, isClass, isSubtype, found, missed⟩

end Declaration

end ObjectFlow
