import ObjectFlow.Proofs.Hierarchy.Declared

/-!
# The order of classes

Declaring the classes of a program in another order gives other ids, and brings
the array types up in another order.  But each program is accepted if the other
one is, and their hierarchies say the same of each name: what a program declares
of a class, and which texts it has to resolve, does not depend on the order.
-/

namespace ObjectFlow

/-! ## Hierarchies that say the same -/

def ClassDescription.parents (description : ClassDescription) : List String :=
  description.superclass.toList ++ description.interfaces

namespace TypeTable

variable {table : TypeTable} {sketch : Sketch} {type other : TypeId} {name parent : String}

theorem Shows.find?_eq_some_iff (shows : table.Shows sketch) :
    table.find? name = some type ↔ table.typeName? type = some name :=
  TypeTable.find?_eq_some_iff shows.names

theorem parents_described {info : ClassInfo} {description : ClassDescription}
    (described : table.describedClass? info = some description) :
    info.parents.mapM table.typeName? = some description.parents := by
  obtain ⟨superclass, interfaces, _⟩ := describedClass?_eq_some.mp described
  rw [mapM_eq_some_iff] at interfaces ⊢
  refine List.rel_append ?_ interfaces
  cases isSuper : info.superclass with
  | none =>
      rw [isSuper] at superclass
      rw [← Option.some.inj superclass]
      exact .nil
  | some sup =>
      rw [isSuper] at superclass
      obtain ⟨supName, isName, same⟩ := Option.map_eq_some_iff.mp superclass
      rw [← same]
      exact .cons isName .nil

def ParentNamed (table : TypeTable) (name parent : String) : Prop :=
  ∃ description, table.described? name = some (.declared description) ∧
    parent ∈ description.parents

private theorem Shows.parentNamed_of_mem (shows : table.Shows sketch)
    (isName : table.typeName? type = some name) (member : other ∈ table.parents type) :
    ∃ parent, table.typeName? other = some parent ∧ table.ParentNamed name parent := by
  obtain ⟨kind, answer, isKind, described, isAnswer⟩ := shows.exists_kind? isName
  cases kind with
  | primitive _ => simp [parents, classInfo?, isKind, TypeKind.classInfo?] at member
  | array _ => simp [parents, classInfo?, isKind, TypeKind.classInfo?] at member
  | declared info =>
      have isClass : table.classInfo? type = some info := by
        simp [classInfo?, isKind, TypeKind.classInfo?]
      rw [parents_of_classInfo? isClass] at member
      obtain ⟨description, isDescription, rfl⟩ := Option.map_eq_some_iff.mp described
      obtain ⟨index, isThere⟩ := List.mem_iff_getElem?.mp member
      have names := mapM_eq_some_iff.mp (parents_described isDescription)
      obtain ⟨below, isThere⟩ := List.getElem?_eq_some_iff.mp isThere
      have below' : index < description.parents.length := names.length_eq ▸ below
      have isParent := names.get below below'
      simp only [List.get_eq_getElem, isThere] at isParent
      exact ⟨_, isParent, description, isAnswer, List.getElem_mem below'⟩

private theorem Shows.mem_of_parentNamed (shows : table.Shows sketch)
    (isName : table.typeName? type = some name) (isParent : table.ParentNamed name parent) :
    ∃ other ∈ table.parents type, table.typeName? other = some parent := by
  obtain ⟨kind, answer, isKind, described, isAnswer⟩ := shows.exists_kind? isName
  obtain ⟨description, isDescription, member⟩ := isParent
  cases isAnswer.symm.trans isDescription
  cases kind with
  | primitive _ => cases described
  | array _ =>
      obtain ⟨_, _, same⟩ := Option.map_eq_some_iff.mp described
      cases same
  | declared info =>
      obtain ⟨_, isDescription, same⟩ := Option.map_eq_some_iff.mp described
      cases same
      have isClass : table.classInfo? type = some info := by
        simp [classInfo?, isKind, TypeKind.classInfo?]
      rw [parents_of_classInfo? isClass]
      have names := mapM_eq_some_iff.mp (parents_described isDescription)
      obtain ⟨index, below, isThere⟩ := List.mem_iff_getElem.mp member
      have below' : index < info.parents.length := names.length_eq.symm ▸ below
      have here := names.get below' below
      simp only [List.get_eq_getElem, isThere] at here
      exact ⟨_, List.getElem_mem below', here⟩

theorem Shows.inherits_iff (shows : table.Shows sketch)
    (isName : table.typeName? type = some name) (isParent : table.typeName? other = some parent) :
    table.Inherits type other ↔ Relation.ReflTransGen table.ParentNamed name parent := by
  constructor
  · intro inherits
    obtain ⟨_, isParent', path⟩ := exists_path_named shows.parentNamed_of_mem isName inherits
    cases isParent.symm.trans isParent'
    exact path
  · intro path
    obtain ⟨_, inherits, isParent'⟩ := exists_path_of_named shows.mem_of_parentNamed isName path
    rw [typeName?_unique shows.names isParent isParent']
    exact inherits

end TypeTable

namespace Hierarchy

def isSubtypeNamed? (hierarchy : Hierarchy) (sub sup : String) : Option Bool := do
  let sub ← hierarchy.table.find? sub
  let sup ← hierarchy.table.find? sup
  hierarchy.isSubtype? sub sup

/-- Two hierarchies have the same types, which they describe in the same way and relate in the same
way. -/
structure SameByName (first second : Hierarchy) : Prop where
  types : ∀ name, name ∈ first.typeNames ↔ name ∈ second.typeNames
  known : ∀ name ∈ first.typeNames, (first.table.described? name).isSome
  described : ∀ name, first.table.described? name = second.table.described? name
  subtypes : ∀ sub sup, first.isSubtypeNamed? sub sup = second.isSubtypeNamed? sub sup

def Namesakes (first second : Hierarchy) (type type' : TypeId) : Prop :=
  ∃ name, first.typeName? type = some name ∧ second.typeName? type' = some name

inductive Alike (first second : Hierarchy) : TypeKind → TypeKind → Prop
  | primitive (type : Primitive) : Alike first second (.primitive type) (.primitive type)
  | declared (info info' : ClassInfo) : Alike first second (.declared info) (.declared info')
  | array {element element' : TypeId} (elements : Namesakes first second element element') :
      Alike first second (.array element) (.array element')

theorem Alike.isReference {first second : Hierarchy} {kind kind' : TypeKind}
    (alike : Alike first second kind kind') : kind.isReference = kind'.isReference := by
  cases alike <;> rfl

section Subtyping

variable {first second : Hierarchy} {sketch sketch' : Sketch} {type type' sup sup' : TypeId}

theorem Namesakes.eq_iff (shows : first.table.Shows sketch) (shows' : second.table.Shows sketch')
    (types : first.Namesakes second type type') (sups : first.Namesakes second sup sup') :
    type = sup ↔ type' = sup' := by
  obtain ⟨name, isName, isName'⟩ := types
  obtain ⟨other, isOther, isOther'⟩ := sups
  constructor
  · rintro rfl
    cases isName.symm.trans isOther
    exact TypeTable.typeName?_unique shows'.names isName' isOther'
  · rintro rfl
    cases isName'.symm.trans isOther'
    exact TypeTable.typeName?_unique shows.names isName isOther

private theorem Namesakes.object (shows : first.table.Shows sketch)
    (shows' : second.table.Shows sketch') :
    first.Namesakes second TypeTable.objectType TypeTable.objectType :=
  ⟨"Object", shows.stays.names rfl, shows'.stays.names rfl⟩

private theorem alike_of_described {kind kind' : TypeKind} {description : TypeDescription}
    (described : first.table.describedKind? kind = some description)
    (described' : second.table.describedKind? kind' = some description) :
    Alike first second kind kind' := by
  cases kind with
  | primitive type =>
      cases described
      cases kind' with
      | primitive type' => cases described'; exact .primitive type
      | declared _ => simp [TypeTable.describedKind?] at described'
      | array _ => simp [TypeTable.describedKind?] at described'
  | declared info =>
      obtain ⟨_, _, rfl⟩ := Option.map_eq_some_iff.mp described
      cases kind' with
      | primitive _ => simp [TypeTable.describedKind?] at described'
      | declared info' => exact .declared info info'
      | array _ => simp [TypeTable.describedKind?] at described'
  | array element =>
      obtain ⟨name, isName, rfl⟩ := Option.map_eq_some_iff.mp described
      cases kind' with
      | primitive _ => simp [TypeTable.describedKind?] at described'
      | declared _ => simp [TypeTable.describedKind?] at described'
      | array element' =>
          obtain ⟨_, isName', same⟩ := Option.map_eq_some_iff.mp described'
          cases same
          exact .array ⟨name, isName, isName'⟩

theorem Namesakes.alike (shows : first.table.Shows sketch) (shows' : second.table.Shows sketch')
    (same : ∀ name, first.table.described? name = second.table.described? name)
    (types : first.Namesakes second type type') : ∃ kind kind',
    first.kind? type = some kind ∧ second.kind? type' = some kind' ∧
      Alike first second kind kind' := by
  obtain ⟨name, isName, isName'⟩ := types
  obtain ⟨kind, description, isKind, described, isAnswer⟩ := shows.exists_kind? isName
  obtain ⟨kind', description', isKind', described', isAnswer'⟩ := shows'.exists_kind? isName'
  rw [same, isAnswer'] at isAnswer
  cases isAnswer
  exact ⟨kind, kind', isKind, isKind', alike_of_described described described'⟩

theorem Namesakes.mem_supertypesOf_iff (shows : first.table.Shows sketch)
    (shows' : second.table.Shows sketch')
    (same : ∀ name, first.table.described? name = second.table.described? name)
    (types : first.Namesakes second type type') (sups : first.Namesakes second sup sup') :
    sup ∈ first.table.supertypesOf type ↔ sup' ∈ second.table.supertypesOf type' := by
  obtain ⟨kind, kind', isKind, isKind', alike⟩ := types.alike shows shows' same
  rw [TypeTable.mem_supertypesOf_iff isKind, TypeTable.mem_supertypesOf_iff isKind',
    alike.isReference, sups.eq_iff shows shows' (.object shows shows')]
  obtain ⟨name, isName, isName'⟩ := types
  obtain ⟨other, isOther, isOther'⟩ := sups
  have parents : first.table.ParentNamed = second.table.ParentNamed := by
    unfold TypeTable.ParentNamed
    simp only [same]
  rw [shows.inherits_iff isName isOther, shows'.inherits_iff isName' isOther', parents]

private theorem Namesakes.subtypeWithin_eq (linked : first.Linked) (linked' : second.Linked)
    (shows : first.table.Shows sketch) (shows' : second.table.Shows sketch')
    (same : ∀ name, first.table.described? name = second.table.described? name) (depth : Nat)
    (types : first.Namesakes second type type') (sups : first.Namesakes second sup sup') :
    first.subtypeWithin depth type sup = second.subtypeWithin depth type' sup' := by
  induction depth generalizing type type' sup sup' with
  | zero => rfl
  | succ depth ih =>
      unfold subtypeWithin
      by_cases equal : type = sup
      · rw [if_pos equal, if_pos ((types.eq_iff shows shows' sups).mp equal)]
      rw [if_neg equal, if_neg fun equal' => equal ((types.eq_iff shows shows' sups).mpr equal')]
      obtain ⟨kind, kind', isKind, isKind', alike⟩ := types.alike shows shows' same
      obtain ⟨supKind, supKind', isSup, isSup', supAlike⟩ := sups.alike shows shows' same
      have known : (first.supertypes[type]?).any (·.contains sup) =
          (second.supertypes[type']?).any (·.contains sup') := by
        have members := types.mem_supertypesOf_iff shows shows' same sups
        rw [linked.supertypes, linked'.supertypes]
        have below := TypeTable.lt_length_of_kind? isKind
        have below' := TypeTable.lt_length_of_kind? isKind'
        simp only [List.getElem?_map, List.getElem?_range below, List.getElem?_range below',
          Option.map_some, Option.any_some]
        rw [Bool.eq_iff_iff, OrderedSet.contains_iff, OrderedSet.contains_iff, members]
      simp only [isKind, isKind', isSup, isSup', Option.bind_eq_bind, Option.bind_some]
      cases alike with
      | primitive _ => rfl
      | declared _ _ =>
          cases supAlike with
          | primitive _ => rfl
          | declared _ _ => simp only [known]
          | array _ => simp only [known]
      | array elements =>
          cases supAlike with
          | primitive _ => rfl
          | declared _ _ => simp only [known]
          | array supElements =>
              obtain ⟨_, _, isElement, isElement', alike⟩ := elements.alike shows shows' same
              obtain ⟨_, _, isSup, isSup', alike'⟩ := supElements.alike shows shows' same
              simp only [isReference?, isElement, isElement', isSup, isSup', Option.map_some,
                Option.bind_some, alike.isReference, alike'.isReference, ih elements supElements]

private theorem find?_namesakes (shows : first.table.Shows sketch)
    (shows' : second.table.Shows sketch')
    (types : ∀ name, name ∈ first.typeNames ↔ name ∈ second.typeNames) (name : String) :
    (first.table.find? name = none ∧ second.table.find? name = none) ∨
      ∃ type type', first.table.find? name = some type ∧ second.table.find? name = some type' ∧
        first.Namesakes second type type' := by
  by_cases known : name ∈ first.typeNames
  · obtain ⟨type, isName⟩ := TypeTable.mem_names_iff.mp known
    obtain ⟨type', isName'⟩ := TypeTable.mem_names_iff.mp ((types name).mp known)
    exact .inr ⟨type, type', shows.find?_eq_some_iff.mpr isName,
      shows'.find?_eq_some_iff.mpr isName', name, isName, isName'⟩
  · exact .inl ⟨TypeTable.find?_eq_none_iff.mpr known,
      TypeTable.find?_eq_none_iff.mpr fun known' => known ((types name).mpr known')⟩

private theorem isSubtypeNamed?_eq (linked : first.Linked) (linked' : second.Linked)
    (shows : first.table.Shows sketch) (shows' : second.table.Shows sketch')
    (same : ∀ name, first.table.described? name = second.table.described? name)
    (types : ∀ name, name ∈ first.typeNames ↔ name ∈ second.typeNames) (sub sup : String) :
    first.isSubtypeNamed? sub sup = second.isSubtypeNamed? sub sup := by
  -- A check goes as deep as there are types, and there are as many in both.
  have size : first.table.types.length = second.table.types.length := by
    have names := (List.perm_ext_iff_of_nodup shows.names shows'.names).mpr types
    simpa using names.length_eq
  unfold isSubtypeNamed? isSubtype?
  obtain ⟨isNone, isNone'⟩ | ⟨type, type', isSub, isSub', subs⟩ :=
    find?_namesakes shows shows' types sub
  · rw [isNone, isNone']
    rfl
  obtain ⟨isNone, isNone'⟩ | ⟨parent, parent', isSup, isSup', sups⟩ :=
    find?_namesakes shows shows' types sup
  · rw [isSub, isSub', isNone, isNone']
    rfl
  simp only [isSub, isSub', isSup, isSup', Option.bind_eq_bind, Option.bind_some, size]
  exact subs.subtypeWithin_eq linked linked' shows shows' same _ sups

end Subtyping

end Hierarchy

namespace Declaration

/-! ## Reordering the classes -/

section Reordering

variable {program other : Program} (shuffled : program.classes.Perm other.classes)

include shuffled

theorem mem_baseNames_of_perm (name : String) :
    name ∈ baseNames program.classes ↔ name ∈ baseNames other.classes := by
  simp only [baseNames, List.mem_append, (shuffled.map Class.name).mem_iff]

private theorem classNamed_of_perm {name : String} {isInterface : Bool}
    (named : ClassNamed program.classes name isInterface) :
    ClassNamed other.classes name isInterface := by
  obtain initial | ⟨declared, member, isName, isKind⟩ := named
  · exact .inl initial
  · exact .inr ⟨declared, shuffled.mem_iff.mp member, isName, isKind⟩

private theorem acceptable_of_perm (acceptable : program.Acceptable) : other.Acceptable := by
  refine ⟨?_, fun declared member => ?_, fun declared member => ?_⟩
  · exact ((shuffled.map Class.name).append_left _).nodup_iff.mp acceptable.names
  · exact acceptable.named declared (shuffled.mem_iff.mpr member)
  · have here := acceptable.classes declared (shuffled.mem_iff.mpr member)
    refine ⟨fun text isText => ?_, fun text isText => ?_, fun text isText => ?_, here.fields,
      here.methods⟩
    · exact classNamed_of_perm shuffled (here.superclass text isText)
    · obtain ⟨isInterface, named⟩ := here.interfaces text isText
      exact ⟨isInterface, classNamed_of_perm shuffled named⟩
    · exact (here.members text isText).mono (mem_baseNames_of_perm shuffled)

private theorem describes_of_perm {name : String} {description : TypeDescription}
    (describes : program.Describes name description) : other.Describes name description := by
  have base := mem_baseNames_of_perm shuffled
  cases describes with
  | initial found => exact .initial found
  | declared member => exact .declared (shuffled.mem_iff.mp member)
  | array isWritten mentions isNew isArray =>
      refine .array ?_ (mentions.mono base) (fun known => isNew ((base _).mpr known)) isArray
      have texts : program.texts.Perm other.texts :=
        (shuffled.flatMap_right _).append (shuffled.flatMap_right _)
      exact texts.mem_iff.mp isWritten

end Reordering

theorem isSome_described?_iff {program : Program} {hierarchy : Hierarchy}
    (built : program.hierarchy = .ok hierarchy) {name : String} :
    (hierarchy.table.described? name).isSome ↔ name ∈ hierarchy.typeNames := by
  rw [Option.isSome_iff_exists]
  constructor
  · rintro ⟨description, described⟩
    exact Sketch.mem_names_of_described? described
  · intro member
    obtain ⟨type, isName⟩ := TypeTable.mem_names_iff.mp member
    exact exists_described? built isName

/-- Whether the classes of a program are declared in one order or in another makes no difference to
whether it is accepted, and by name none to its hierarchy. -/
theorem class_order_irrelevant {program other : Program}
    (shuffled : program.classes.Perm other.classes) :
    ((∃ hierarchy, program.hierarchy = .ok hierarchy) ↔
      ∃ hierarchy, other.hierarchy = .ok hierarchy) ∧
    ∀ first second, program.hierarchy = .ok first → other.hierarchy = .ok second →
      first.SameByName second := by
  refine ⟨?_, fun first second built built' => ?_⟩
  · rw [hierarchy_ok_iff, hierarchy_ok_iff]
    exact ⟨acceptable_of_perm shuffled, acceptable_of_perm shuffled.symm⟩
  have same : ∀ name, first.table.described? name = second.table.described? name := by
    intro name
    refine Option.ext fun description => ?_
    rw [described?_hierarchy built, described?_hierarchy built']
    exact ⟨describes_of_perm shuffled, describes_of_perm shuffled.symm⟩
  have types : ∀ name, name ∈ first.typeNames ↔ name ∈ second.typeNames := by
    intro name
    rw [← isSome_described?_iff built, ← isSome_described?_iff built', same]
  obtain ⟨_, _, shows⟩ := hierarchy_shows built
  obtain ⟨_, _, shows'⟩ := hierarchy_shows built'
  refine ⟨types, fun name => (isSome_described?_iff built).mpr, same, fun sub sup => ?_⟩
  exact Hierarchy.isSubtypeNamed?_eq (hierarchy_linked built) (hierarchy_linked built') shows shows'
    same types sub sup

/-- A program whose classes extend, implement and mention classes that come later. -/
def forwardProgram : Program :=
  ⟨"Leaf.run",
    [⟨"Leaf", some "Branch", some "Grown, Cut", false,
        [.method ⟨"run", some "Leaf[]", true, false, false, [.local ⟨"all", "Root[][]", false⟩]⟩]⟩,
      ⟨"Branch", some " Root ", none, false, [.field ⟨"leaves", "Leaf[]", false⟩]⟩,
      ⟨"Root", none, some "Grown", false, [.field ⟨"grid", "Branch[][]", true⟩]⟩,
      ⟨"Grown", none, none, true, []⟩, ⟨"Cut", none, some "Grown", true, []⟩]⟩

def backwardProgram : Program :=
  { forwardProgram with classes := forwardProgram.classes.reverse }

theorem class_order_irrelevant_reversed :
    forwardProgram.classes.Perm backwardProgram.classes ∧
      ∃ first second, forwardProgram.hierarchy = .ok first ∧
        backwardProgram.hierarchy = .ok second ∧ first.typeNames ≠ second.typeNames ∧
        first.SameByName second := by
  have shuffled : forwardProgram.classes.Perm backwardProgram.classes :=
    (List.reverse_perm _).symm
  have isLast : forwardProgram.hierarchy.toOption.map (·.typeNames.getLast?) =
      some (some "Branch[][]") := by decide +kernel
  have isLast' : backwardProgram.hierarchy.toOption.map (·.typeNames.getLast?) =
      some (some "Root[][]") := by decide +kernel
  obtain ⟨first, isFirst, last⟩ := Option.map_eq_some_iff.mp isLast
  obtain ⟨second, isSecond, last'⟩ := Option.map_eq_some_iff.mp isLast'
  have built := toOption_eq_some.mp isFirst
  have built' := toOption_eq_some.mp isSecond
  have differ : first.typeNames ≠ second.typeNames := by
    intro same
    rw [same, last'] at last
    simp at last
  exact ⟨shuffled, first, second, built, built', differ,
    (class_order_irrelevant shuffled).2 first second built built'⟩

end Declaration

end ObjectFlow
