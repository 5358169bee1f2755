import ObjectFlow.Proofs.Hierarchy.Building
import ObjectFlow.Proofs.Hierarchy.Inheritance

/-!
# Declared subtyping

What is declared relates types by rules that can be applied over and over.  A
hierarchy decides the relation without transitivity: it looks up the supertypes
of a class, and descends into the elements of arrays.  Both ways agree as long
as nothing is above `Object`.
-/

namespace ObjectFlow

namespace TypeTable

variable {table : TypeTable} {type sub sup first second third : TypeId}

def IsReference (table : TypeTable) (type : TypeId) : Prop :=
  ∃ kind, table.kind? type = some kind ∧ kind.isReference = true

/-- Subtyping as it is declared. -/
inductive Below (table : TypeTable) : TypeId → TypeId → Prop
  | refl (type : TypeId) : Below table type type
  | trans {first second third : TypeId} : Below table first second → Below table second third →
      Below table first third
  | superclass {type superclass : TypeId} {info : ClassInfo} :
      table.classInfo? type = some info → info.superclass = some superclass →
      Below table type superclass
  | interface {type interface : TypeId} {info : ClassInfo} :
      table.classInfo? type = some info → interface ∈ info.interfaces → Below table type interface
  | class {type : TypeId} {info : ClassInfo} :
      table.classInfo? type = some info → Below table type objectType
  | array {type element : TypeId} :
      table.kind? type = some (.array element) → Below table type objectType
  | elements {sub sup subElement supElement : TypeId} :
      table.kind? sub = some (.array subElement) → table.kind? sup = some (.array supElement) →
      table.IsReference subElement → table.IsReference supElement →
      Below table subElement supElement → Below table sub sup

/-- Subtyping as it is looked up, each pair of types by one rule. -/
inductive Judged (table : TypeTable) : TypeId → TypeId → Prop
  | inherits {sub sup : TypeId} : table.Inherits sub sup → Judged table sub sup
  | object {sub : TypeId} : table.IsReference sub → Judged table sub objectType
  | elements {sub sup subElement supElement : TypeId} :
      table.kind? sub = some (.array subElement) → table.kind? sup = some (.array supElement) →
      table.IsReference subElement → table.IsReference supElement →
      Judged table subElement supElement → Judged table sub sup

theorem isReference_of_classInfo? {info : ClassInfo} (isClass : table.classInfo? type = some info) :
    table.IsReference type :=
  ⟨_, kind?_of_classInfo? isClass, rfl⟩

/-! ## Looking up without transitivity -/

theorem Grounded.inherits_cases (grounded : table.Grounded) (inherits : table.Inherits sub sup) :
    sub = sup ∨ (table.classInfo? sub).isSome ∧ (table.classInfo? sup).isSome := by
  induction inherits with
  | refl => exact .inl rfl
  | tail _ isParent ih =>
      refine .inr ⟨?_, grounded.parents _ _ isParent⟩
      obtain rfl | ⟨isClass, _⟩ := ih
      · obtain ⟨info, isClass, _⟩ := mem_parents_iff.mp isParent
        exact Option.isSome_iff_exists.mpr ⟨info, isClass⟩
      · exact isClass

theorem not_array_of_class {element : TypeId} (isClass : (table.classInfo? type).isSome) :
    table.kind? type ≠ some (.array element) := by
  obtain ⟨info, isClass⟩ := Option.isSome_iff_exists.mp isClass
  rw [kind?_of_classInfo? isClass]
  nofun

theorem Judged.trans (grounded : table.Grounded) (root : table.parents objectType = [])
    (before : table.Judged first second) (next : table.Judged second third) :
    table.Judged first third := by
  induction before generalizing third with
  | inherits inherits =>
      obtain rfl | ⟨isClass, isClass'⟩ := grounded.inherits_cases inherits
      · exact next
      cases next with
      | inherits inherits' => exact .inherits (Relation.ReflTransGen.trans inherits inherits')
      | object _ =>
          obtain ⟨info, isClass⟩ := Option.isSome_iff_exists.mp isClass
          exact .object (isReference_of_classInfo? isClass)
      | elements isArray => exact absurd isArray (not_array_of_class isClass')
  | object isReference =>
      cases next with
      | inherits inherits =>
          obtain rfl | ⟨_, isParent, _⟩ := inherits.cases_head
          · exact .object isReference
          · rw [root] at isParent
            cases isParent
      | object _ => exact .object isReference
      | elements isArray => exact absurd isArray (not_array_of_class grounded.object)
  | elements isArray isArray' isReference isReference' _ ih =>
      cases next with
      | inherits inherits =>
          obtain rfl | ⟨isClass, _⟩ := grounded.inherits_cases inherits
          · exact .elements isArray isArray' isReference isReference' (ih (.inherits .refl))
          · exact absurd isArray' (not_array_of_class isClass)
      | object _ => exact .object ⟨_, isArray, rfl⟩
      | elements isSame isArray'' _ isReference'' next =>
          cases isArray'.symm.trans isSame
          exact .elements isArray isArray'' isReference isReference'' (ih next)

theorem Judged.eq_of_primitive (grounded : table.Grounded) (judged : table.Judged sub sup)
    {primitive : Primitive} (isPrimitive : table.kind? sub = some (.primitive primitive) ∨
      table.kind? sup = some (.primitive primitive)) : sub = sup := by
  have notClass : ∀ {type}, table.kind? type = some (.primitive primitive) →
      ¬ (table.classInfo? type).isSome := by
    intro type isPrimitive isClass
    obtain ⟨info, isClass⟩ := Option.isSome_iff_exists.mp isClass
    cases (kind?_of_classInfo? isClass).symm.trans isPrimitive
  cases judged with
  | inherits inherits =>
      obtain same | ⟨isClass, isClass'⟩ := grounded.inherits_cases inherits
      · exact same
      · rcases isPrimitive with isPrimitive | isPrimitive
        · exact absurd isClass (notClass isPrimitive)
        · exact absurd isClass' (notClass isPrimitive)
  | object isReference =>
      obtain ⟨kind, isKind, isReference⟩ := isReference
      rcases isPrimitive with isPrimitive | isPrimitive
      · cases isKind.symm.trans isPrimitive
        cases isReference
      · exact absurd grounded.object (notClass isPrimitive)
  | elements isArray isArray' =>
      rcases isPrimitive with isPrimitive | isPrimitive
      · cases isArray.symm.trans isPrimitive
      · cases isArray'.symm.trans isPrimitive

private theorem Judged.lt_length (grounded : table.Grounded) (judged : table.Judged sub sup) :
    sub = sup ∨ sub < table.types.length ∧ sup < table.types.length := by
  have ofClass : ∀ {type}, (table.classInfo? type).isSome → type < table.types.length := by
    intro type isClass
    obtain ⟨info, isClass⟩ := Option.isSome_iff_exists.mp isClass
    exact lt_length_of_classInfo? isClass
  cases judged with
  | inherits inherits => exact (grounded.inherits_cases inherits).imp_right (.imp ofClass ofClass)
  | object isReference =>
      obtain ⟨kind, isKind, _⟩ := isReference
      exact .inr ⟨lt_length_of_kind? isKind, ofClass grounded.object⟩
  | elements isArray isArray' =>
      exact .inr ⟨lt_length_of_kind? isArray, lt_length_of_kind? isArray'⟩

/-! ## Both ways agree -/

theorem mem_parents_withDefaultSuperclass {parent : TypeId} :
    parent ∈ table.withDefaultSuperclass.parents type ↔ parent ∈ table.parents type ∨
      type ≠ objectType ∧ parent = objectType ∧
        ∃ info, table.classInfo? type = some info ∧ info.superclass = none := by
  rw [mem_parents_iff, mem_parents_iff, classInfo?_withDefaultSuperclass]
  cases table.classInfo? type with
  | none => simp
  | some info =>
      simp only [Option.map_some, Option.some.injEq, exists_eq_left']
      split
      · next other =>
          simp [ClassInfo.parents, other.1, other.2, or_comm]
      · next named =>
          refine ⟨.inl, fun isParent => isParent.resolve_right fun default => ?_⟩
          exact named ⟨default.1, default.2.2⟩

theorem kind?_withDefaultSuperclass_array {element : TypeId} :
    table.withDefaultSuperclass.kind? type = some (.array element) ↔
      table.kind? type = some (.array element) := by
  rw [kind?_withDefaultSuperclass]
  refine ⟨eq_array_of_changed, fun isArray => ?_⟩
  rw [isArray]
  rfl

theorem isReference_withDefaultSuperclass :
    table.withDefaultSuperclass.IsReference type ↔ table.IsReference type := by
  unfold IsReference
  rw [kind?_withDefaultSuperclass]
  cases table.kind? type with
  | none => simp
  | some kind => cases kind <;> simp [changed, TypeKind.isReference]

theorem Grounded.withDefaultSuperclass (grounded : table.Grounded) :
    table.withDefaultSuperclass.Grounded := by
  have stays : ∀ other, (table.classInfo? other).isSome →
      (table.withDefaultSuperclass.classInfo? other).isSome := by
    intro other isClass
    simpa [classInfo?_withDefaultSuperclass] using isClass
  refine ⟨stays _ grounded.object, fun type element isArray => ?_, fun type parent isParent => ?_⟩
  · rw [kind?_withDefaultSuperclass] at isArray
    exact grounded.elements type element (eq_array_of_changed isArray)
  · refine stays _ ?_
    rcases mem_parents_withDefaultSuperclass.mp isParent with isParent | ⟨_, rfl, _⟩
    · exact grounded.parents type parent isParent
    · exact grounded.object

private theorem below_of_isReference (isReference : table.IsReference type) :
    table.Below type objectType := by
  obtain ⟨kind, isKind, isReference⟩ := isReference
  cases kind with
  | primitive _ => cases isReference
  | declared info =>
      have isClass : table.classInfo? type = some info := by
        simp [classInfo?, isKind, TypeKind.classInfo?]
      exact .class isClass
  | array element => exact .array isKind

private theorem below_of_inherits (inherits : table.withDefaultSuperclass.Inherits sub sup) :
    table.Below sub sup := by
  induction inherits with
  | refl => exact .refl _
  | tail _ isParent ih =>
      refine ih.trans ?_
      rcases mem_parents_withDefaultSuperclass.mp isParent with
        isParent | ⟨_, rfl, info, isClass, _⟩
      · obtain ⟨info, isClass, isParent⟩ := mem_parents_iff.mp isParent
        rcases List.mem_append.mp isParent with isSuper | isInterface
        · exact .superclass isClass (Option.mem_toList.mp isSuper)
        · exact .interface isClass isInterface
      · exact .class isClass

private theorem below_of_judged (judged : table.withDefaultSuperclass.Judged sub sup) :
    table.Below sub sup := by
  induction judged with
  | inherits inherits => exact below_of_inherits inherits
  | object isReference =>
      exact below_of_isReference (isReference_withDefaultSuperclass.mp isReference)
  | elements isArray isArray' isReference isReference' _ ih =>
      exact .elements (kind?_withDefaultSuperclass_array.mp isArray)
        (kind?_withDefaultSuperclass_array.mp isArray')
        (isReference_withDefaultSuperclass.mp isReference)
        (isReference_withDefaultSuperclass.mp isReference') ih

private theorem judged_of_parent (isParent : sup ∈ table.parents sub) :
    table.withDefaultSuperclass.Judged sub sup :=
  .inherits (.single (mem_parents_withDefaultSuperclass.mpr (.inl isParent)))

private theorem Grounded.judged_iff_below (grounded : table.Grounded)
    (root : table.parents objectType = []) :
    table.withDefaultSuperclass.Judged sub sup ↔ table.Below sub sup := by
  have root' : table.withDefaultSuperclass.parents objectType = [] := by
    refine List.eq_nil_iff_forall_not_mem.mpr fun parent isParent => ?_
    rcases mem_parents_withDefaultSuperclass.mp isParent with isParent | ⟨other, _⟩
    · rw [root] at isParent
      cases isParent
    · exact other rfl
  refine ⟨below_of_judged, fun below => ?_⟩
  induction below with
  | refl type => exact .inherits .refl
  | trans _ _ before next => exact before.trans grounded.withDefaultSuperclass root' next
  | superclass isClass isSuper =>
      exact judged_of_parent
        (mem_parents_iff.mpr ⟨_, isClass, List.mem_append_left _ (Option.mem_toList.mpr isSuper)⟩)
  | interface isClass isInterface =>
      exact judged_of_parent
        (mem_parents_iff.mpr ⟨_, isClass, List.mem_append_right _ isInterface⟩)
  | «class» isClass =>
      exact .object (isReference_withDefaultSuperclass.mpr (isReference_of_classInfo? isClass))
  | array isArray => exact .object (isReference_withDefaultSuperclass.mpr ⟨_, isArray, rfl⟩)
  | elements isArray isArray' isReference isReference' _ ih =>
      exact .elements (kind?_withDefaultSuperclass_array.mpr isArray)
        (kind?_withDefaultSuperclass_array.mpr isArray')
        (isReference_withDefaultSuperclass.mpr isReference)
        (isReference_withDefaultSuperclass.mpr isReference') ih

end TypeTable

namespace Hierarchy

open TypeTable

variable {hierarchy : Hierarchy} {sub sup : TypeId}

/-! ## The look-up decides -/

private theorem exists_kind? (below : sub < hierarchy.table.types.length) :
    ∃ kind, hierarchy.kind? sub = some kind :=
  ⟨hierarchy.table.types[sub].kind, by simp [kind?, TypeTable.kind?, below]⟩

private theorem isReference?_eq_true {type : TypeId} :
    hierarchy.isReference? type = some true ↔ hierarchy.table.IsReference type := by
  simp [isReference?, IsReference, kind?]

theorem judged_arrays_iff {subElement supElement : TypeId} (grounded : hierarchy.table.Grounded)
    (differ : sub ≠ sup) (isArray : hierarchy.kind? sub = some (.array subElement))
    (isArray' : hierarchy.kind? sup = some (.array supElement)) :
    hierarchy.table.Judged sub sup ↔ hierarchy.table.IsReference subElement ∧
      hierarchy.table.IsReference supElement ∧ hierarchy.table.Judged subElement supElement := by
  constructor
  · intro judged
    cases judged with
    | inherits inherits =>
        obtain same | ⟨isClass, _⟩ := grounded.inherits_cases inherits
        · exact absurd same differ
        · exact absurd isArray (not_array_of_class isClass)
    | object _ => exact absurd isArray' (not_array_of_class grounded.object)
    | elements isSame isSame' isReference isReference' judged =>
        cases isSame.symm.trans isArray
        cases isSame'.symm.trans isArray'
        exact ⟨isReference, isReference', judged⟩
  · rintro ⟨isReference, isReference', judged⟩
    exact .elements isArray isArray' isReference isReference' judged

private theorem judged_iff_mem {kind kind' : TypeKind} (isKind : hierarchy.kind? sub = some kind)
    (isKind' : hierarchy.kind? sup = some kind') (isReference : kind.isReference = true)
    (notArrays : ¬ (kind.isArray = true ∧ kind'.isArray = true)) :
    hierarchy.table.Judged sub sup ↔ sup ∈ hierarchy.table.supertypesOf sub := by
  rw [mem_supertypesOf_iff isKind]
  constructor
  · intro judged
    cases judged with
    | inherits inherits => exact .inl inherits
    | object _ => exact .inr ⟨isReference, rfl⟩
    | elements isArray isArray' =>
        cases isKind.symm.trans isArray
        cases isKind'.symm.trans isArray'
        exact absurd ⟨rfl, rfl⟩ notArrays
  · rintro (inherits | ⟨_, rfl⟩)
    · exact .inherits inherits
    · exact .object ⟨kind, isKind, isReference⟩

/-- An id bounds the dimensions of its type, so looking deeper than that finds nothing else. -/
theorem subtypeWithin_spec (grounded : hierarchy.table.Grounded)
    (supertypes : hierarchy.supertypes =
      (List.range hierarchy.table.types.length).map hierarchy.table.supertypesOf)
    (isSub : sub < hierarchy.table.types.length) (isSup : sup < hierarchy.table.types.length)
    {depth : Nat} (within : sub < depth) :
    ∃ answer, hierarchy.subtypeWithin depth sub sup = some answer ∧
      (answer = true ↔ hierarchy.table.Judged sub sup) := by
  -- elements have smaller ids than their arrays, so one step down leaves depth enough
  induction depth generalizing sub sup with
  | zero => exact absurd within (Nat.not_lt_zero _)
  | succ depth ih =>
      unfold subtypeWithin
      by_cases same : sub = sup
      · exact ⟨true, if_pos same, fun _ => same ▸ .inherits .refl, fun _ => rfl⟩
      rw [if_neg same]
      have primitive : ∀ {primitive}, hierarchy.kind? sub = some (.primitive primitive) ∨
          hierarchy.kind? sup = some (.primitive primitive) →
          ∃ answer, some false = some answer ∧
            (answer = true ↔ hierarchy.table.Judged sub sup) := fun isPrimitive =>
        ⟨false, rfl, by rintro ⟨⟩,
          fun judged => absurd (judged.eq_of_primitive grounded isPrimitive) same⟩
      have known : ∀ {kind kind'}, hierarchy.kind? sub = some kind →
          hierarchy.kind? sup = some kind' → kind.isReference = true →
          ¬ (kind.isArray = true ∧ kind'.isArray = true) →
          ∃ answer, some ((hierarchy.supertypes[sub]?).any (·.contains sup)) = some answer ∧
            (answer = true ↔ hierarchy.table.Judged sub sup) := by
        intro kind kind' isKind isKind' isReference notArrays
        refine ⟨_, rfl, ?_⟩
        rw [judged_iff_mem isKind isKind' isReference notArrays]
        simp [supertypes, isSub]
      obtain ⟨kind, isKind⟩ := exists_kind? isSub
      obtain ⟨kind', isKind'⟩ := exists_kind? isSup
      simp only [isKind, isKind', Option.bind_eq_bind, Option.bind_some]
      cases kind with
      | primitive _ => exact primitive (.inl isKind)
      | declared _ =>
          cases kind' with
          | primitive _ => exact primitive (.inr isKind')
          | declared _ => exact known isKind isKind' rfl (by simp [TypeKind.isArray])
          | array _ => exact known isKind isKind' rfl (by simp [TypeKind.isArray])
      | array element =>
          cases kind' with
          | primitive _ => exact primitive (.inr isKind')
          | declared _ => exact known isKind isKind' rfl (by simp [TypeKind.isArray])
          | array element' =>
              have before := grounded.elements sub element isKind
              have before' := grounded.elements sup element' isKind'
              obtain ⟨here, isHere⟩ := exists_kind? (before.trans isSub)
              obtain ⟨there, isThere⟩ := exists_kind? (before'.trans isSup)
              obtain ⟨answer, isAnswer, decides⟩ := ih (before.trans isSub) (before'.trans isSup)
                (Nat.lt_of_lt_of_le before (Nat.le_of_lt_succ within))
              rw [judged_arrays_iff grounded same isKind isKind', ← isReference?_eq_true,
                ← isReference?_eq_true, ← decides]
              simp only [isReference?, isHere, isThere, Option.map_some, Option.bind_some, isAnswer]
              cases here.isReference <;> cases there.isReference <;> simp

private theorem lt_length_of_isSubtype? (isSubtype : hierarchy.isSubtype? sub sup = some true) :
    sub = sup ∨ sub < hierarchy.table.types.length ∧ sup < hierarchy.table.types.length := by
  unfold isSubtype? subtypeWithin at isSubtype
  split at isSubtype
  · next same => exact .inl same
  · obtain ⟨_, isKind, isSubtype⟩ := Option.bind_eq_some_iff.mp isSubtype
    obtain ⟨_, isKind', _⟩ := Option.bind_eq_some_iff.mp isSubtype
    exact .inr ⟨lt_length_of_kind? isKind, lt_length_of_kind? isKind'⟩

theorem isSubtype?_iff_judged (grounded : hierarchy.table.Grounded)
    (supertypes : hierarchy.supertypes =
      (List.range hierarchy.table.types.length).map hierarchy.table.supertypesOf) :
    hierarchy.isSubtype? sub sup = some true ↔ hierarchy.table.Judged sub sup := by
  have decides : sub < hierarchy.table.types.length ∧ sup < hierarchy.table.types.length →
      (hierarchy.isSubtype? sub sup = some true ↔ hierarchy.table.Judged sub sup) := by
    rintro ⟨isSub, isSup⟩
    obtain ⟨answer, isAnswer, decides⟩ := subtypeWithin_spec grounded supertypes isSub isSup
      (Nat.lt_succ_of_lt isSub)
    rw [← decides, isSubtype?, isAnswer]
    simp
  constructor
  · intro isSubtype
    obtain rfl | known := lt_length_of_isSubtype? isSubtype
    · exact .inherits .refl
    · exact (decides known).mp isSubtype
  · intro judged
    obtain rfl | known := judged.lt_length grounded
    · exact isSubtype?_refl sub
    · exact (decides known).mpr judged

/-! ## Subtyping -/

/-- Unless something was attached to `Object`, a hierarchy decides declared subtyping: its answers
are those that the declarations justify, it has one for every two types, transitivity holds, and
primitive types are kept apart.  To descend as far as the id of a type is far enough, since elements
come before their arrays. -/
theorem subtyping_declared (operations : List Operation)
    (root : (TypeTable.after operations).parents objectType = []) :
    let table := TypeTable.after operations
    let hierarchy := table.build
    (∀ sub sup, hierarchy.isSubtype? sub sup = some true ↔ table.Below sub sup) ∧
    (∀ sub < table.types.length, ∀ sup < table.types.length,
      ∃ answer, hierarchy.isSubtype? sub sup = some answer ∧
        ∀ depth > sub, hierarchy.subtypeWithin depth sub sup = some answer) ∧
    (∀ first second third, hierarchy.isSubtype? first second = some true →
      hierarchy.isSubtype? second third = some true →
        hierarchy.isSubtype? first third = some true) ∧
    (∀ type primitive, table.kind? type = some (.primitive primitive) → ∀ other,
      (hierarchy.isSubtype? type other = some true ↔ other = type) ∧
      (hierarchy.isSubtype? other type = some true ↔ other = type)) ∧
    ∀ type element, table.kind? type = some (.array element) → element < type := by
  intro table hierarchy
  have grounded : table.Grounded := grounded_after operations
  have grounded' : hierarchy.table.Grounded := grounded.withDefaultSuperclass
  have length : hierarchy.table.types.length = table.types.length := by
    simp [hierarchy, TypeTable.build, TypeTable.withDefaultSuperclass]
  have judges : ∀ {sub sup}, hierarchy.isSubtype? sub sup = some true ↔
      hierarchy.table.Judged sub sup := isSubtype?_iff_judged grounded' rfl
  have decides : ∀ {sub sup}, hierarchy.isSubtype? sub sup = some true ↔ table.Below sub sup :=
    judges.trans (grounded.judged_iff_below root)
  refine ⟨fun _ _ => decides, fun sub isSub sup isSup => ?_,
    fun first second third before next => ?_,
    fun type primitive isPrimitive other => ?_, grounded.elements⟩
  · rw [← length] at isSub isSup
    obtain ⟨answer, isAnswer, judged⟩ :=
      subtypeWithin_spec grounded' rfl isSub isSup (Nat.lt_succ_of_lt isSub)
    refine ⟨answer, isAnswer, fun depth within => ?_⟩
    obtain ⟨deeper, isDeeper, judged'⟩ := subtypeWithin_spec grounded' rfl isSub isSup within
    rw [isDeeper, Option.some.injEq, Bool.eq_iff_iff, judged, judged']
  · exact decides.mpr ((decides.mp before).trans (decides.mp next))
  · have isPrimitive : hierarchy.table.kind? type = some (.primitive primitive) := by
      rw [show hierarchy.table.kind? type = _ from kind?_withDefaultSuperclass type, isPrimitive]
      rfl
    refine ⟨⟨fun isSubtype => ?_, ?_⟩, ⟨fun isSubtype => ?_, ?_⟩⟩
    · exact ((judges.mp isSubtype).eq_of_primitive grounded' (.inl isPrimitive)).symm
    · rintro rfl
      exact isSubtype?_refl other
    · exact (judges.mp isSubtype).eq_of_primitive grounded' (.inr isPrimitive)
    · rintro rfl
      exact isSubtype?_refl other

def layeredOperations : List Operation :=
  [.declareClass "Root" false, .declareClass "Leaf" false, .declareClass "Grown" true,
    .setSuperclass 11 10, .addInterface 10 12, .addInterface 12 11, .setSuperclass 8 4,
    .resolveType "Leaf[][]", .resolveType "Grown[] []"]

theorem subtyping_declared_layered :
    (TypeTable.after layeredOperations).parents objectType = [] ∧
      (TypeTable.after layeredOperations).typeName? 14 = some "Leaf[][]" ∧
      (TypeTable.after layeredOperations).typeName? 16 = some "Grown[] []" ∧
      (TypeTable.after layeredOperations).Below 14 16 ∧
      (TypeTable.after layeredOperations).Below 16 14 ∧
      ¬ (TypeTable.after layeredOperations).Below 16 13 := by
  have root : (TypeTable.after layeredOperations).parents objectType = [] := by decide +kernel
  have decides := (subtyping_declared layeredOperations root).1
  refine ⟨root, by decide +kernel, by decide +kernel, (decides 14 16).mp (by decide +kernel),
    (decides 16 14).mp (by decide +kernel), fun below => ?_⟩
  exact absurd ((decides 16 13).mpr below) (by decide +kernel)

end Hierarchy

end ObjectFlow
