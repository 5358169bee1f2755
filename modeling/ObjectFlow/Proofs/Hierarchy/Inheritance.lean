import ObjectFlow.Proofs.Hierarchy.Linking
import ObjectFlow.Proofs.Reachability

/-!
# What classes inherit

The supertypes of a class are found by a search with a counted bound, which is
enough to meet every superclass and interface.  So what a class inherits comes
from one of its supertypes: the fields of its objects, the implementations that
calls on them run, and the initializers that its use triggers.
-/

namespace ObjectFlow

/-! ## Searches -/

private theorem exists_iterate_lt {α : Type} {step : α → α} {start goal : α} {count : Nat}
    (found : step^[count] start = goal) (way : Finset α)
    (inside : ∀ before more, step^[more] (step^[before] start) = goal → step^[before] start ∈ way) :
    ∃ fewer < way.card, step^[fewer] start = goal := by
  classical
  have leads : ∃ count, step^[count] start = goal := ⟨count, found⟩
  refine ⟨Nat.find leads, ?_, Nat.find_spec leads⟩
  suffices (Finset.range (Nat.find leads + 1)).card ≤ way.card by
    rw [Finset.card_range] at this
    exact this
  have shortcut : ∀ {first second : Nat}, second ≤ Nat.find leads →
      step^[first] start = step^[second] start →
      step^[Nat.find leads - second + first] start = goal := by
    intro first second within same
    rw [Function.iterate_add_apply, same, ← Function.iterate_add_apply, Nat.sub_add_cancel within]
    exact Nat.find_spec leads
  have noShortcut : ∀ {first second : Nat}, second ≤ Nat.find leads →
      step^[first] start = step^[second] start → second ≤ first := by
    intro first second within same
    have := Nat.find_min' leads (shortcut within same)
    omega
  refine Finset.card_le_card_of_injOn (fun before => step^[before] start) ?_ ?_
  · intro before within
    refine inside before (Nat.find leads - before) ?_
    rw [← Function.iterate_add_apply, Nat.sub_add_cancel (by simpa [Nat.lt_succ_iff] using within)]
    exact Nat.find_spec leads
  · intro first firstWithin second secondWithin same
    simp only [Finset.coe_range, Set.mem_Iio, Nat.lt_succ_iff] at firstWithin secondWithin
    exact Nat.le_antisymm (noShortcut firstWithin same.symm) (noShortcut secondWithin same)

/-! ## Supertypes -/

namespace TypeTable

variable {table : TypeTable}

theorem parents_of_classInfo? {type : TypeId} {info : ClassInfo}
    (found : table.classInfo? type = some info) : table.parents type = info.parents := by
  simp [parents, found]

private theorem parents_outside (type : TypeId) (outside : table.types.length ≤ type) :
    table.parents type = [] := by
  simp [parents, classInfo?, kind?, List.getElem?_eq_none outside]

private theorem sum_parents (table : TypeTable) :
    ∑ type ∈ Finset.range table.types.length, (table.parents type).length = table.parentCount := by
  unfold parentCount
  rw [← List.sum_eq_foldl, ← Fin.sum_univ_fun_getElem, Finset.sum_range]
  refine Finset.sum_congr rfl fun type _ => ?_
  have found : table.classInfo? type = (table.types.get type).kind.classInfo? := by
    simp [classInfo?, kind?]
  unfold parents
  rw [found]
  show _ = (table.types.get type).kind.classInfo?.elim 0 _
  cases (table.types.get type).kind.classInfo? <;> rfl

/-- The class can be reached through superclasses and interfaces. -/
def Inherits (table : TypeTable) : TypeId → TypeId → Prop :=
  Relation.ReflTransGen fun type parent => parent ∈ table.parents type

theorem mem_supertypesOf_iff {type other : TypeId} {kind : TypeKind}
    (isKind : table.kind? type = some kind) :
    other ∈ table.supertypesOf type ↔ table.Inherits type other ∨
      kind.isReference = true ∧ other = objectType := by
  have alone : table.classInfo? type = none →
      (table.Inherits type other ↔ other = type) := by
    intro isNone
    refine ⟨fun inherits => ?_, fun same => same ▸ .refl⟩
    rcases inherits.cases_head with same | ⟨next, isNext, _⟩
    · exact same.symm
    · simp [parents, isNone] at isNext
  unfold supertypesOf
  rw [isKind]
  cases kind with
  | primitive _ =>
      rw [alone (by simp [classInfo?, isKind, TypeKind.classInfo?])]
      simp [TypeKind.isReference]
  | array _ =>
      rw [alone (by simp [classInfo?, isKind, TypeKind.classInfo?])]
      simp [TypeKind.isReference, or_comm]
  | declared info =>
      have met : other ∈ reachable table.parentCount table.parents [type] ↔
          table.Inherits type other := by
        rw [mem_reachable_iff table.parents_outside table.sum_parents.le]
        simp [Inherits]
      simp [met, TypeKind.isReference, or_comm]

private theorem Inherits.mem_supertypesOf {type parent : TypeId} {info : ClassInfo}
    (isClass : table.classInfo? type = some info) (inherits : table.Inherits type parent) :
    parent ∈ table.supertypesOf type :=
  (mem_supertypesOf_iff (kind?_of_classInfo? isClass)).mpr (.inl inherits)

private theorem objectType_mem_supertypesOf {type element : TypeId}
    (isArray : table.kind? type = some (.array element)) :
    objectType ∈ table.supertypesOf type :=
  (mem_supertypesOf_iff isArray).mpr (.inr ⟨rfl, rfl⟩)

end TypeTable

/-! ## Subtypes -/

/-- The members of the classes are linked, and the supertypes of each type are known. -/
structure Hierarchy.Linked (hierarchy : Hierarchy) : Prop where
  table : hierarchy.table.Linked
  supertypes : hierarchy.supertypes =
    (List.range hierarchy.table.types.length).map hierarchy.table.supertypesOf

theorem Declaration.hierarchy_linked {program : Declaration.Program} {hierarchy : Hierarchy}
    (built : program.hierarchy = .ok hierarchy) : hierarchy.Linked := by
  obtain ⟨table, supertypes⟩ := hierarchy_cases built
  exact ⟨table, supertypes⟩

namespace Hierarchy

variable {hierarchy : Hierarchy}

theorem isSubtype?_refl (type : TypeId) : hierarchy.isSubtype? type type = some true := by
  simp [isSubtype?, subtypeWithin]

theorem Linked.isSubtype?_of_mem (linked : hierarchy.Linked) {type sup : TypeId}
    {info : ClassInfo} {kind : TypeKind} (isClass : hierarchy.table.classInfo? sup = some info)
    (isKind : hierarchy.kind? type = some kind) (isReference : kind.isReference = true)
    (member : sup ∈ hierarchy.table.supertypesOf type) :
    hierarchy.isSubtype? type sup = some true := by
  have isSup : hierarchy.kind? sup = some (.declared info) := TypeTable.kind?_of_classInfo? isClass
  have below : type < hierarchy.table.types.length := by
    obtain ⟨_, isEntry, _⟩ := Option.map_eq_some_iff.mp isKind
    exact (List.getElem?_eq_some_iff.mp isEntry).1
  have known : (hierarchy.supertypes[type]?).any (·.contains sup) = true := by
    simp [linked.supertypes, below, member]
  by_cases same : type = sup
  · exact same ▸ isSubtype?_refl type
  · cases kind with
    | primitive _ => cases isReference
    | declared _ => simp [isSubtype?, subtypeWithin, same, isKind, isSup, known]
    | array _ => simp [isSubtype?, subtypeWithin, same, isKind, isSup, known]

private theorem Linked.isSubtype?_of_inherits (linked : hierarchy.Linked) {type sup : TypeId}
    {info supInfo : ClassInfo} (isClass : hierarchy.table.classInfo? type = some info)
    (isSup : hierarchy.table.classInfo? sup = some supInfo)
    (inherits : hierarchy.table.Inherits type sup) : hierarchy.isSubtype? type sup = some true :=
  linked.isSubtype?_of_mem isSup (TypeTable.kind?_of_classInfo? isClass) rfl
    (inherits.mem_supertypesOf isClass)

/-! ## Superclass chains -/

def superclass? (hierarchy : Hierarchy) (type : TypeId) : Option TypeId :=
  (hierarchy.table.classInfo? type).bind ClassInfo.superclass

/-- A class is above another one, or is that class. -/
def Above (hierarchy : Hierarchy) : TypeId → TypeId → Prop :=
  Relation.ReflTransGen fun sub sup => hierarchy.superclass? sub = some sup

theorem Above.inherits {type sup : TypeId} (above : hierarchy.Above type sup) :
    hierarchy.table.Inherits type sup := by
  refine Relation.ReflTransGen.mono (fun sub sup isSuper => ?_) _ _ above
  obtain ⟨info, isClass, isSuper⟩ := Option.bind_eq_some_iff.mp isSuper
  simp [TypeTable.parents_of_classInfo? isClass, ClassInfo.parents, isSuper]

theorem mem_lineageWithin {steps : Nat} {type : TypeId} {info : ClassInfo}
    (member : info ∈ hierarchy.lineageWithin steps type) :
    ∃ first sup, hierarchy.table.classInfo? type = some first ∧
      hierarchy.table.classInfo? sup = some info ∧ hierarchy.Above type sup := by
  induction steps generalizing type with
  | zero => cases member
  | succ steps ih =>
      unfold lineageWithin at member
      split at member
      · cases member
      · next first found =>
          refine ⟨first, ?_⟩
          rcases List.mem_cons.mp member with rfl | member
          · exact ⟨type, found, found, .refl⟩
          · split at member
            · cases member
            · next superclass isSuper =>
                obtain ⟨_, sup, _, isInfo, above⟩ := ih member
                exact ⟨sup, found, isInfo, .head (by simp [superclass?, found, isSuper]) above⟩

theorem Linked.isSubtype?_of_lineage (linked : hierarchy.Linked) {type : TypeId} {info : ClassInfo}
    (member : info ∈ hierarchy.lineage type) :
    ∃ sup, hierarchy.table.classInfo? sup = some info ∧ info.Linked hierarchy.table sup ∧
      hierarchy.isSubtype? type sup = some true := by
  obtain ⟨_, sup, isClass, isInfo, above⟩ := mem_lineageWithin member
  exact ⟨sup, isInfo, linked.table.classes sup info isInfo,
    linked.isSubtype?_of_inherits isClass isInfo above.inherits⟩

private theorem iterate_superclass? {type sup : TypeId} (above : hierarchy.Above type sup) :
    ∃ count, (Option.bind · hierarchy.superclass?)^[count] (some type) = some sup := by
  induction above with
  | refl => exact ⟨0, rfl⟩
  | tail _ isSuper ih =>
      obtain ⟨count, found⟩ := ih
      refine ⟨count + 1, ?_⟩
      rw [Function.iterate_succ_apply', found]
      exact isSuper

private theorem mem_lineageWithin_of_iterate {type sup : TypeId} {info : ClassInfo}
    (isClass : hierarchy.table.classInfo? sup = some info) {count steps : Nat}
    (found : (Option.bind · hierarchy.superclass?)^[count] (some type) = some sup)
    (within : count < steps) : info ∈ hierarchy.lineageWithin steps type := by
  induction count generalizing type steps with
  | zero =>
      obtain ⟨steps, rfl⟩ := Nat.exists_eq_succ_of_ne_zero (Nat.ne_of_gt within)
      obtain rfl : type = sup := Option.some.inj found
      simp [lineageWithin, isClass]
  | succ count ih =>
      obtain ⟨steps, rfl⟩ := Nat.exists_eq_succ_of_ne_zero (Nat.ne_of_gt (Nat.zero_lt_of_lt within))
      rw [Function.iterate_succ_apply] at found
      cases isSuper : hierarchy.superclass? type with
      | none =>
          have stuck : (Option.bind · hierarchy.superclass?)^[count] none = none :=
            Function.iterate_fixed rfl count
          rw [show (some type).bind hierarchy.superclass? = none from isSuper, stuck] at found
          cases found
      | some next =>
          rw [show (some type).bind hierarchy.superclass? = some next from isSuper] at found
          obtain ⟨first, isFirst, isNext⟩ := Option.bind_eq_some_iff.mp isSuper
          rw [lineageWithin, isFirst]
          refine List.mem_cons_of_mem _ ?_
          rw [isNext]
          exact ih found (Nat.lt_of_succ_lt_succ within)

/-- A lineage has all classes above the one it starts from, even if they go round in a circle. -/
theorem mem_lineage {type sup : TypeId} {info : ClassInfo} (above : hierarchy.Above type sup)
    (isClass : hierarchy.table.classInfo? sup = some info) : info ∈ hierarchy.lineage type := by
  let way := (Finset.range hierarchy.table.types.length).map ⟨some, Option.some_injective _⟩
  have inside : ∀ before more,
      (Option.bind · hierarchy.superclass?)^[more]
        ((Option.bind · hierarchy.superclass?)^[before] (some type)) = some sup →
      (Option.bind · hierarchy.superclass?)^[before] (some type) ∈ way := by
    intro before more leads
    cases isType : (Option.bind · hierarchy.superclass?)^[before] (some type) with
    | none =>
        rw [isType, Function.iterate_fixed (f := (Option.bind · hierarchy.superclass?)) rfl]
          at leads
        cases leads
    | some at' =>
        rw [isType] at leads
        suffices at' < hierarchy.table.types.length by simpa [way] using this
        cases more with
        | zero =>
            obtain rfl : at' = sup := Option.some.inj leads
            exact TypeTable.lt_length_of_classInfo? isClass
        | succ more =>
            rw [Function.iterate_succ_apply] at leads
            cases isSuper : hierarchy.superclass? at' with
            | none =>
                rw [show (some at').bind hierarchy.superclass? = none from isSuper,
                  Function.iterate_fixed (f := (Option.bind · hierarchy.superclass?)) rfl] at leads
                cases leads
            | some next =>
                obtain ⟨_, isFirst, _⟩ := Option.bind_eq_some_iff.mp isSuper
                exact TypeTable.lt_length_of_classInfo? isFirst
  obtain ⟨count, found⟩ := iterate_superclass? above
  obtain ⟨fewer, within, found⟩ := exists_iterate_lt found way inside
  rw [Finset.card_map, Finset.card_range] at within
  exact mem_lineageWithin_of_iterate isClass found within

private theorem Linked.lineage_objectType (linked : hierarchy.Linked) {info : ClassInfo}
    (member : info ∈ hierarchy.lineage TypeTable.objectType) :
    hierarchy.table.classInfo? TypeTable.objectType = some info := by
  obtain ⟨first, sup, isObject, isInfo, above⟩ := mem_lineageWithin member
  have root := ((linked.table.classes _ first isObject).root rfl).1
  cases above.inherits.cases_head with
  | inl same => exact same ▸ isInfo
  | inr next =>
      obtain ⟨parent, isParent, _⟩ := next
      rw [TypeTable.parents_of_classInfo? isObject, root] at isParent
      cases isParent

private theorem Linked.isSubtype?_array (linked : hierarchy.Linked) {type element : TypeId}
    (isArray : hierarchy.kind? type = some (.array element)) :
    hierarchy.isSubtype? type TypeTable.objectType = some true := by
  obtain ⟨object, isObject⟩ := Option.isSome_iff_exists.mp linked.table.object
  exact linked.isSubtype?_of_mem isObject isArray rfl
    (TypeTable.objectType_mem_supertypesOf isArray)

/-- A call runs an implementation of a class that the receiver is an object of. -/
theorem Linked.resolveMethod?_spec (linked : hierarchy.Linked) {type : TypeId} {selector : Selector}
    {id : MethodId} (found : hierarchy.resolveMethod? type selector = some (some id)) :
    ∃ method, hierarchy.method? id = some method ∧ method.implements selector = true ∧
      hierarchy.isSubtype? type method.declaring = some true := by
  obtain ⟨kind, isKind, found⟩ := Option.bind_eq_some_iff.mp found
  have of_lineage : ∀ start, ((hierarchy.lineage start).findSome? fun classInfo =>
      classInfo.methods.find? fun id => (hierarchy.method? id).any (·.implements selector)) =
        some id → (∀ info ∈ hierarchy.lineage start, ∃ sup,
          info.Linked hierarchy.table sup ∧ hierarchy.isSubtype? type sup = some true) →
      ∃ method, hierarchy.method? id = some method ∧ method.implements selector = true ∧
        hierarchy.isSubtype? type method.declaring = some true := by
    intro start found supertypes
    obtain ⟨info, member, found⟩ := List.exists_of_findSome?_eq_some found
    obtain ⟨sup, isLinked, isSubtype⟩ := supertypes info member
    obtain ⟨method, isMethod, rfl⟩ := isLinked.methods.held id (List.mem_of_find?_eq_some found)
    have implements := List.find?_some found
    rw [show hierarchy.method? id = some method from isMethod] at implements
    exact ⟨method, isMethod, implements, isSubtype⟩
  cases kind with
  | primitive _ => cases found
  | declared _ =>
      refine of_lineage type (Option.some.inj found) fun info member => ?_
      obtain ⟨sup, _, isLinked, isSubtype⟩ := linked.isSubtype?_of_lineage member
      exact ⟨sup, isLinked, isSubtype⟩
  | array _ =>
      refine of_lineage TypeTable.objectType (Option.some.inj found) fun info member => ?_
      exact ⟨_, linked.table.classes _ info (linked.lineage_objectType member),
        linked.isSubtype?_array isKind⟩

theorem Linked.isSubtype?_of_instanceField (linked : hierarchy.Linked) {type : TypeId}
    {fields : List FieldId} {id : FieldId} (found : hierarchy.instanceFields? type = some fields)
    (member : id ∈ fields) :
    ∃ field, hierarchy.field? id = some field ∧
      hierarchy.isSubtype? type field.declaring = some true := by
  obtain ⟨_, _, same⟩ := Option.bind_eq_some_iff.mp found
  cases same
  obtain ⟨info, isInfo, listed⟩ := List.mem_flatMap.mp member
  obtain ⟨sup, _, isLinked, isSubtype⟩ := linked.isSubtype?_of_lineage isInfo
  obtain ⟨field, isField, rfl⟩ := isLinked.fields.held id (List.mem_filter.mp listed).1
  exact ⟨field, isField, isSubtype⟩

theorem field?_of_lookupField {type : TypeId} {name : String} {id : FieldId}
    (found : hierarchy.lookupField type name = .ok id) :
    ∃ field, hierarchy.field? id = some field := by
  unfold lookupField at found
  cases isType : hierarchy.typeName? type with
  | none => rw [isType] at found; cases found
  | some typeName =>
      rw [isType] at found
      cases isFound : (hierarchy.lineage type).findSome? fun classInfo =>
          classInfo.fields.find? fun id => (hierarchy.field? id).any (·.name = name) with
      | none =>
          simp only [inRange, isFound, pure_bind] at found
          cases found
      | some other =>
          simp only [inRange, isFound, pure_bind] at found
          cases found
          obtain ⟨info, _, isFound⟩ := List.exists_of_findSome?_eq_some isFound
          have isNamed := List.find?_some isFound
          obtain ⟨field, isField, _⟩ := (Option.any_eq_true _ _).mp isNamed
          exact ⟨field, isField⟩

/-! ## Class initializers -/

/-- The use of a class triggers its initializer and those of all classes above it. -/
theorem mem_classInitializersFor?_of_above {type sup : TypeId} {initializers : List MethodId}
    {info : ClassInfo} {method : MethodId}
    (found : hierarchy.classInitializersFor? type = some initializers)
    (above : hierarchy.Above type sup) (isClass : hierarchy.table.classInfo? sup = some info)
    (isInitializer : info.classInitializer = some method) : method ∈ initializers := by
  obtain ⟨_, _, same⟩ := Option.bind_eq_some_iff.mp found
  cases same
  exact List.mem_reverse.mpr
    (List.mem_filterMap.mpr ⟨info, mem_lineage above isClass, isInitializer⟩)

theorem mem_classInitializersFor? {type : TypeId} {initializers : List MethodId} {method : MethodId}
    (found : hierarchy.classInitializersFor? type = some initializers)
    (member : method ∈ initializers) :
    ∃ info ∈ hierarchy.lineage type, info.classInitializer = some method := by
  obtain ⟨_, _, same⟩ := Option.bind_eq_some_iff.mp found
  cases same
  exact List.mem_filterMap.mp (List.mem_reverse.mp member)

def IsInitializer (hierarchy : Hierarchy) (method : MethodId) : Prop :=
  ∃ type info, hierarchy.table.classInfo? type = some info ∧ info.classInitializer = some method

theorem isInitializer_of_mem {type : TypeId} {initializers : List MethodId} {method : MethodId}
    (found : hierarchy.classInitializersFor? type = some initializers)
    (member : method ∈ initializers) : hierarchy.IsInitializer method := by
  obtain ⟨info, isInfo, isMethod⟩ := mem_classInitializersFor? found member
  obtain ⟨_, sup, _, isClass, _⟩ := mem_lineageWithin isInfo
  exact ⟨sup, info, isClass, isMethod⟩

def Names (hierarchy : Hierarchy) (method : MethodId) : Prop :=
  ∃ name, hierarchy.describeMethod? method = some name

theorem Linked.names_of_isInitializer (linked : hierarchy.Linked) {method : MethodId}
    (isInitializer : hierarchy.IsInitializer method) : hierarchy.Names method := by
  obtain ⟨type, info, isClass, isMethod⟩ := isInitializer
  have isLinked := linked.table.classes type info isClass
  obtain ⟨method', isMethod', rfl⟩ :=
    isLinked.methods.held method (isLinked.initializer method isMethod)
  have isDeclared := TypeTable.lt_length_of_classInfo? isClass
  unfold Names describeMethod?
  rw [show hierarchy.method? method = some method' from isMethod']
  simp [typeName?, TypeTable.typeName?, List.getElem?_eq_getElem isDeclared]

theorem names_of_linked (linked : hierarchy.Linked) {type : TypeId}
    {initializers : List MethodId} {method : MethodId}
    (found : hierarchy.classInitializersFor? type = some initializers)
    (member : method ∈ initializers) : hierarchy.Names method :=
  linked.names_of_isInitializer (isInitializer_of_mem found member)

end Hierarchy

end ObjectFlow
