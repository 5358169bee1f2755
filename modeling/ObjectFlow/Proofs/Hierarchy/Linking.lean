import ObjectFlow.Declaration.Hierarchy
import ObjectFlow.Proofs.Effect

/-!
# Members of declared classes

Building a hierarchy keeps its tables in step: the methods and fields that a
class lists are in their tables and name that class as the one that declares
them, each with a name of its own, and there are no others.  Types have
different names, and an array type comes after that of its elements.  `Object`
never gets a superclass, an interface or a field.
-/

namespace ObjectFlow

open Effect

/-- Some positions of a table hold members of a class, no two with one name. -/
structure Members {α : Type} (declaring : α → TypeId) (name : α → String) (entries : List α)
    (type : TypeId) (ids : List Nat) : Prop where
  held : ∀ id ∈ ids, ∃ entry, entries[id]? = some entry ∧ declaring entry = type
  distinct : ∀ id ∈ ids, ∀ other ∈ ids, ∀ entry entry', entries[id]? = some entry →
    entries[other]? = some entry' → name entry = name entry' → id = other

namespace Members

variable {α : Type} {declaring : α → TypeId} {name : α → String} {entries : List α}
  {type : TypeId} {ids : List Nat}

theorem nil : Members declaring name entries type [] :=
  ⟨by simp, by simp⟩

theorem grow (members : Members declaring name entries type ids) (more : List α) :
    Members declaring name (entries ++ more) type ids := by
  have same : ∀ id ∈ ids, (entries ++ more)[id]? = entries[id]? := by
    intro id member
    obtain ⟨_, found, _⟩ := members.held id member
    exact List.getElem?_append_left (List.getElem?_eq_some_iff.mp found).1
  refine ⟨fun id member => ?_, fun id member other member' entry entry' found found' => ?_⟩
  · rw [same id member]
    exact members.held id member
  · rw [same id member] at found
    rw [same other member'] at found'
    exact members.distinct id member other member' entry entry' found found'

theorem add (members : Members declaring name entries type ids) {entry : α}
    (declares : declaring entry = type)
    (fresh : ∀ id ∈ ids, ∀ other, entries[id]? = some other → name other ≠ name entry) :
    Members declaring name (entries ++ [entry]) type (ids ++ [entries.length]) := by
  have grown := members.grow [entry]
  have new : (entries ++ [entry])[entries.length]? = some entry := List.getElem?_concat_length
  have apart : ∀ id ∈ ids, ∀ other, (entries ++ [entry])[id]? = some other →
      name other ≠ name entry := by
    intro id member other found
    obtain ⟨_, isThere, _⟩ := members.held id member
    rw [List.getElem?_append_left (List.getElem?_eq_some_iff.mp isThere).1] at found
    exact fresh id member other found
  have cases : ∀ id ∈ ids ++ [entries.length], id ∈ ids ∨ id = entries.length := by
    simp
  refine ⟨fun id listed => ?_, fun id listed other listed' here there found found' same => ?_⟩
  · rcases cases id listed with member | rfl
    · exact grown.held id member
    · exact ⟨entry, new, declares⟩
  · rcases cases id listed with member | rfl <;> rcases cases other listed' with member' | rfl
    · exact grown.distinct id member other member' here there found found' same
    · cases new.symm.trans found'
      exact absurd same (apart id member here found)
    · cases new.symm.trans found
      exact absurd same.symm (apart other member' there found')
    · rfl

end Members

structure ClassInfo.Linked (table : TypeTable) (type : TypeId) (info : ClassInfo) : Prop where
  root : type = TypeTable.objectType → info.parents = [] ∧ info.fields = []
  methods : Members Method.declaring Method.name table.methods type info.methods
  fields : Members Field.declaring Field.name table.fields type info.fields
  initializer : ∀ id, info.classInitializer = some id → id ∈ info.methods

def TypeTable.Lists (table : TypeTable) (list : ClassInfo → List Nat) (declaring : TypeId)
    (id : Nat) : Prop :=
  ∃ info, table.classInfo? declaring = some info ∧ id ∈ list info

structure TypeTable.Linked (table : TypeTable) : Prop where
  object : (table.classInfo? objectType).isSome
  throwable : throwableType < table.types.length
  names : (table.types.map TypeInfo.name).Nodup
  elements : ∀ type element, table.kind? type = some (.array element) →
    element < table.types.length
  classes : ∀ type info, table.classInfo? type = some info → info.Linked table type
  methods : ∀ id method, table.methods[id]? = some method →
    table.Lists ClassInfo.methods method.declaring id
  fields : ∀ id field, table.fields[id]? = some field →
    field.type < table.types.length ∧ table.Lists ClassInfo.fields field.declaring id

namespace Text

theorem length_trim_le (name : String) : (trim name).length ≤ name.length := by
  simp only [trim, trimBoth, String.length_ofList, List.length_reverse]
  refine Nat.le_trans (List.dropWhile_suffix _).length_le ?_
  rw [List.length_reverse, ← String.length_toList]
  exact (List.dropWhile_suffix _).length_le

theorem length_stripBrackets?_lt {name inner : String} (found : stripBrackets? name = some inner) :
    inner.length < name.length := by
  unfold stripBrackets? at found
  split at found
  · next rest isName =>
      cases found
      have length := congrArg List.length isName
      simp only [List.length_reverse, List.length_cons, String.length_toList] at length
      simp only [String.length_ofList, List.length_reverse]
      omega
  · cases found

end Text

namespace TypeTable

variable {table later : TypeTable} {type : TypeId} {info : ClassInfo}

theorem kind?_of_classInfo? (found : table.classInfo? type = some info) :
    table.kind? type = some (.declared info) := by
  obtain ⟨kind, isKind, isClass⟩ := Option.bind_eq_some_iff.mp found
  cases kind with
  | declared other => cases isClass; exact isKind
  | primitive _ => cases isClass
  | array _ => cases isClass

theorem lt_length_of_kind? {kind : TypeKind} (found : table.kind? type = some kind) :
    type < table.types.length := by
  obtain ⟨_, isEntry, _⟩ := Option.map_eq_some_iff.mp found
  exact (List.getElem?_eq_some_iff.mp isEntry).1

theorem lt_length_of_classInfo? (found : table.classInfo? type = some info) :
    type < table.types.length :=
  lt_length_of_kind? (kind?_of_classInfo? found)

theorem lt_length_of_find? {name : String} (found : table.find? name = some type) :
    type < table.types.length :=
  (List.findIdx?_eq_some_iff_getElem.mp found).1

theorem find?_eq_none_iff {name : String} :
    table.find? name = none ↔ name ∉ table.types.map TypeInfo.name := by
  unfold find?
  rw [List.findIdx?_eq_none_iff]
  simp

theorem linked_initial : initial.Linked := by
  have classes : ∀ type < initial.types.length, type = objectType ∨ type = throwableType ∨
      initial.classInfo? type = none := by decide
  have plain : ∀ type < initial.types.length, ∀ element,
      initial.kind? type ≠ some (.array element) := by
    intro type inRange element
    have none : ∀ type < initial.types.length,
        ((initial.kind? type).bind TypeKind.element?) = none := by decide
    intro isArray
    simpa [isArray, TypeKind.element?] using none type inRange
  refine ⟨rfl, by decide, by decide, fun type element found => ?_, fun type info found => ?_,
    fun id method found => ?_, by simp [initial]⟩
  · exact absurd found (plain type (lt_length_of_kind? found) element)
  · rcases classes type (lt_length_of_classInfo? found) with rfl | rfl | none
    · cases found
      refine ⟨fun _ => ⟨rfl, rfl⟩, ⟨fun id member => ?_, ?_⟩, .nil, nofun⟩
      · obtain rfl := List.mem_singleton.mp member
        exact ⟨_, rfl, rfl⟩
      · intro id member other member' _ _ _ _ _
        exact (List.mem_singleton.mp member).trans (List.mem_singleton.mp member').symm
    · cases found
      exact ⟨nofun, .nil, .nil, nofun⟩
    · rw [none] at found
      cases found
  · cases id with
    | zero =>
        cases found
        exact ⟨_, rfl, List.mem_singleton_self _⟩
    | succ id => simp [initial] at found

/-! ## Changes of the table -/

theorem getElem?_concat_cases {α : Type} {entries : List α} {new entry : α} {id : Nat}
    (found : (entries ++ [new])[id]? = some entry) :
    entries[id]? = some entry ∨ id = entries.length ∧ entry = new := by
  rw [List.getElem?_append] at found
  split at found
  · exact .inl found
  · rw [List.getElem?_singleton] at found
    split at found
    · cases found
      exact .inr ⟨by omega, rfl⟩
    · cases found

theorem kind?_push (entry : TypeInfo) (other : TypeId) :
    { table with types := table.types ++ [entry] }.kind? other =
      if other = table.types.length then some entry.kind else table.kind? other := by
  simp only [kind?, List.getElem?_append, List.getElem?_singleton]
  grind

theorem classInfo?_push (entry : TypeInfo) (other : TypeId) :
    { table with types := table.types ++ [entry] }.classInfo? other =
      if other = table.types.length then entry.kind.classInfo? else table.classInfo? other := by
  unfold classInfo?
  rw [kind?_push]
  split <;> rfl

def changed (change : ClassInfo → ClassInfo) : TypeKind → TypeKind
  | .declared info => .declared (change info)
  | kind => kind

theorem bind_classInfo?_changed (change : ClassInfo → ClassInfo) (kind : Option TypeKind) :
    (kind.map (changed change)).bind TypeKind.classInfo? =
      (kind.bind TypeKind.classInfo?).map change := by
  cases kind with
  | none => rfl
  | some kind => cases kind <;> rfl

theorem eq_array_of_changed {change : ClassInfo → ClassInfo} {kind : Option TypeKind}
    {element : TypeId} (isArray : kind.map (changed change) = some (.array element)) :
    kind = some (.array element) := by
  obtain ⟨kind, rfl, isArray⟩ := Option.map_eq_some_iff.mp isArray
  cases kind with
  | array inner => cases isArray; rfl
  | declared _ => cases isArray
  | primitive _ => cases isArray

theorem names_modify {change : ClassInfo → ClassInfo} (types : List TypeInfo) (type : TypeId) :
    (types.modify type fun info => match info.kind with
      | .declared classInfo => { info with kind := .declared (change classInfo) }
      | _ => info).map TypeInfo.name = types.map TypeInfo.name := by
  refine List.ext_getElem? fun index => ?_
  simp only [List.getElem?_map, List.getElem?_modify]
  cases types[index]? with
  | none => simp
  | some entry => split <;> cases isKind : entry.kind <;> simp [isKind]

theorem kind?_modify (change : ClassInfo → ClassInfo) (methods : List Method)
    (fields : List Field) (other : TypeId) :
    (⟨table.types.modify type fun info => match info.kind with
      | .declared classInfo => { info with kind := .declared (change classInfo) }
      | _ => info, methods, fields⟩ : TypeTable).kind? other =
      if type = other then (table.kind? other).map (changed change) else table.kind? other := by
  simp only [kind?, List.getElem?_modify]
  cases table.types[other]? with
  | none => simp
  | some entry =>
      split
      · cases isKind : entry.kind <;> simp [isKind, changed]
      · simp

theorem classInfo?_modify (change : ClassInfo → ClassInfo) (methods : List Method)
    (fields : List Field) (other : TypeId) :
    (⟨table.types.modify type fun info => match info.kind with
      | .declared classInfo => { info with kind := .declared (change classInfo) }
      | _ => info, methods, fields⟩ : TypeTable).classInfo? other =
      if type = other then (table.classInfo? other).map change else table.classInfo? other := by
  unfold classInfo?
  rw [kind?_modify]
  split
  · exact bind_classInfo?_changed change _
  · rfl

/-- The later table has all that the earlier one has; classes may list more members. -/
structure Grows (table later : TypeTable) : Prop where
  methods : table.methods <+: later.methods
  fields : table.fields <+: later.fields
  types : table.types.length ≤ later.types.length
  classes : ∀ type info, table.classInfo? type = some info → ∃ grown,
    later.classInfo? type = some grown ∧ info.methods ⊆ grown.methods ∧ info.fields ⊆ grown.fields

private theorem Grows.lists (grows : table.Grows later) {declaring : TypeId} {id : Nat} :
    (table.Lists ClassInfo.methods declaring id → later.Lists ClassInfo.methods declaring id) ∧
      (table.Lists ClassInfo.fields declaring id → later.Lists ClassInfo.fields declaring id) := by
  constructor
  · rintro ⟨info, isClass, listed⟩
    obtain ⟨grown, isGrown, methods, _⟩ := grows.classes declaring info isClass
    exact ⟨grown, isGrown, methods listed⟩
  · rintro ⟨info, isClass, listed⟩
    obtain ⟨grown, isGrown, _, fields⟩ := grows.classes declaring info isClass
    exact ⟨grown, isGrown, fields listed⟩

/-- Of a table that has grown only what is new has to be looked at. -/
theorem Linked.change (linked : table.Linked) (grows : table.Grows later)
    (names : (later.types.map TypeInfo.name).Nodup)
    (elements : ∀ type element, later.kind? type = some (.array element) →
      table.kind? type = some (.array element) ∨ element < later.types.length)
    (classes : ∀ type info, later.classInfo? type = some info →
      table.classInfo? type = some info ∨ info.Linked later type)
    (methods : ∀ id method, later.methods[id]? = some method →
      table.methods[id]? = some method ∨ later.Lists ClassInfo.methods method.declaring id)
    (fields : ∀ id field, later.fields[id]? = some field → table.fields[id]? = some field ∨
      field.type < later.types.length ∧ later.Lists ClassInfo.fields field.declaring id) :
    later.Linked := by
  refine ⟨?_, Nat.lt_of_lt_of_le linked.throwable grows.types, names, ?_, ?_, ?_, ?_⟩
  · obtain ⟨object, isObject⟩ := Option.isSome_iff_exists.mp linked.object
    obtain ⟨grown, isGrown, _⟩ := grows.classes _ object isObject
    exact Option.isSome_iff_exists.mpr ⟨grown, isGrown⟩
  · intro type element found
    rcases elements type element found with earlier | new
    · exact Nat.lt_of_lt_of_le (linked.elements type element earlier) grows.types
    · exact new
  · intro type info found
    rcases classes type info found with earlier | new
    · obtain ⟨moreMethods, isMethods⟩ := grows.methods
      obtain ⟨moreFields, isFields⟩ := grows.fields
      have before := linked.classes type info earlier
      exact ⟨before.root, isMethods ▸ before.methods.grow moreMethods,
        isFields ▸ before.fields.grow moreFields, before.initializer⟩
    · exact new
  · intro id method found
    rcases methods id method found with earlier | new
    · exact grows.lists.1 (linked.methods id method earlier)
    · exact new
  · intro id field found
    rcases fields id field found with earlier | new
    · obtain ⟨inRange, listed⟩ := linked.fields id field earlier
      exact ⟨Nat.lt_of_lt_of_le inRange grows.types, grows.lists.2 listed⟩
    · exact new

theorem Linked.push (linked : table.Linked) {entry : TypeInfo}
    (fresh : entry.name ∉ table.types.map TypeInfo.name)
    (element : ∀ element, entry.kind = .array element → element < table.types.length)
    (plain : ∀ info, entry.kind = .declared info → ∃ isInterface,
      info = { ClassInfo.empty with isInterface := isInterface }) :
    { table with types := table.types ++ [entry] }.Linked := by
  obtain ⟨object, isObject⟩ := Option.isSome_iff_exists.mp linked.object
  have below := lt_length_of_classInfo? isObject
  have grows : table.Grows { table with types := table.types ++ [entry] } := by
    refine ⟨List.prefix_rfl, List.prefix_rfl, by simp, fun type info found => ?_⟩
    refine ⟨info, ?_, List.Subset.refl _, List.Subset.refl _⟩
    rw [classInfo?_push, if_neg (Nat.ne_of_lt (lt_length_of_classInfo? found)), found]
  refine linked.change grows ?_ ?_ ?_ (fun _ _ => .inl) (fun _ _ => .inl)
  · rw [List.map_append, List.map_singleton]
    refine List.nodup_append.mpr ⟨linked.names, by simp, fun name member _ new same => ?_⟩
    exact fresh (List.mem_singleton.mp new ▸ same ▸ member)
  · intro type inner found
    rw [kind?_push] at found
    split at found
    · refine .inr (Nat.lt_of_lt_of_le (element inner (Option.some.inj found)) ?_)
      exact grows.types
    · exact .inl found
  · intro type info found
    rw [classInfo?_push] at found
    split at found
    · next isNew =>
        have isClass : entry.kind = .declared info := by
          cases isKind : entry.kind <;> rw [isKind] at found <;> cases found
          rfl
        obtain ⟨isInterface, rfl⟩ := plain info isClass
        refine .inr ⟨fun isObject => ?_, .nil, .nil, nofun⟩
        exact absurd (isNew.symm.trans isObject) (Nat.ne_of_gt below)
    · exact .inl found

theorem Linked.modify (linked : table.Linked) {change : ClassInfo → ClassInfo}
    {methods moreMethods : List Method} {fields moreFields : List Field}
    (addsMethods : methods = table.methods ++ moreMethods)
    (addsFields : fields = table.fields ++ moreFields)
    (keeps : ∀ info, info.methods ⊆ (change info).methods ∧ info.fields ⊆ (change info).fields)
    (here : ∀ info, table.classInfo? type = some info →
      (change info).Linked ⟨table.types, methods, fields⟩ type)
    (listsMethods : ∀ id method, methods[id]? = some method → table.methods[id]? = some method ∨
      method.declaring = type ∧ ∃ info, table.classInfo? type = some info ∧
        id ∈ (change info).methods)
    (listsFields : ∀ id field, fields[id]? = some field → table.fields[id]? = some field ∨
      field.type < table.types.length ∧ field.declaring = type ∧
        ∃ info, table.classInfo? type = some info ∧ id ∈ (change info).fields) :
    (⟨table.types.modify type fun info => match info.kind with
      | .declared classInfo => { info with kind := .declared (change classInfo) }
      | _ => info, methods, fields⟩ : TypeTable).Linked := by
  have isLater : ∀ info, table.classInfo? type = some info →
      (⟨table.types.modify type fun info => match info.kind with
        | .declared classInfo => { info with kind := .declared (change classInfo) }
        | _ => info, methods, fields⟩ : TypeTable).classInfo? type = some (change info) := by
    intro info found
    rw [classInfo?_modify, if_pos rfl, found]
    rfl
  refine linked.change ⟨⟨_, addsMethods.symm⟩, ⟨_, addsFields.symm⟩, ?_, ?_⟩ ?_ ?_ ?_ ?_ ?_
  · simp
  · intro other info found
    by_cases same : type = other
    · subst same
      exact ⟨change info, isLater info found, keeps info⟩
    · refine ⟨info, ?_, List.Subset.refl _, List.Subset.refl _⟩
      rw [classInfo?_modify, if_neg same, found]
  · rw [names_modify]
    exact linked.names
  · intro other element found
    rw [kind?_modify] at found
    split at found
    · exact .inl (eq_array_of_changed found)
    · exact .inl found
  · intro other info found
    rw [classInfo?_modify] at found
    split at found
    · next same =>
        subst same
        obtain ⟨before, isBefore, rfl⟩ := Option.map_eq_some_iff.mp found
        obtain ⟨root, isMethods, isFields, initializer⟩ := here before isBefore
        exact .inr ⟨root, isMethods, isFields, initializer⟩
    · exact .inl found
  · intro id method found
    rcases listsMethods id method found with earlier | ⟨rfl, info, isClass, listed⟩
    · exact .inl earlier
    · exact .inr ⟨_, isLater info isClass, listed⟩
  · intro id field found
    rcases listsFields id field found with earlier | ⟨inRange, rfl, info, isClass, listed⟩
    · exact .inl earlier
    · exact .inr ⟨by simpa using inRange, _, isLater info isClass, listed⟩

/-! ## Building -/

theorem requireClass_run {after : TypeTable}
    (run : requireClass type table = (.ok info, after)) :
    after = table ∧ table.classInfo? type = some info := by
  unfold requireClass at run
  rw [run_bind, run_get] at run
  cases found : table.types[type]? with
  | none =>
      simp only [run_bind, found] at run
      cases run
  | some entry =>
      simp only [run_bind, found, run_inRange_some] at run
      cases isKind : entry.kind with
      | declared info =>
          rw [isKind] at run
          cases run
          simp [classInfo?, kind?, found, isKind, TypeKind.classInfo?]
      | primitive _ => rw [isKind] at run; cases run
      | array _ => rw [isKind] at run; cases run

private theorem requireClass_keeps (type : TypeId) :
    Keeps Linked (requireClass type) fun _ => True := by
  intro table linked info after run
  obtain ⟨rfl, _⟩ := requireClass_run run
  exact ⟨linked, trivial⟩

private theorem setClass_keeps {change : ClassInfo → ClassInfo} (other : type ≠ objectType)
    (same : ∀ info, (change info).methods = info.methods ∧ (change info).fields = info.fields ∧
      (change info).classInitializer = info.classInitializer) :
    Keeps Linked (setClass type change) fun _ => True := by
  refine .modify fun table linked => linked.modify (List.append_nil _).symm
    (List.append_nil _).symm (fun info => ?_) (fun info found => ?_) (fun _ _ => .inl)
    (fun _ _ => .inl)
  · obtain ⟨sameMethods, sameFields, _⟩ := same info
    exact ⟨sameMethods ▸ List.Subset.refl _, sameFields ▸ List.Subset.refl _⟩
  · obtain ⟨sameMethods, sameFields, sameInitializer⟩ := same info
    have before := linked.classes type info found
    refine ⟨fun isObject => absurd isObject other, ?_, ?_, ?_⟩
    · rw [sameMethods]
      exact before.methods
    · rw [sameFields]
      exact before.fields
    · rw [sameMethods, sameInitializer]
      exact before.initializer

private theorem declareClass_keeps (name : String) (isInterface : Bool) :
    Keeps Linked (declareClass name isInterface) fun id => id ≠ objectType := by
  intro table linked id after run
  unfold declareClass at run
  rw [run_bind, run_get] at run
  dsimp only at run
  split at run
  · cases run
  · next absent =>
      split at run
      · cases run
      · cases run
        obtain ⟨object, isObject⟩ := Option.isSome_iff_exists.mp linked.object
        refine ⟨linked.push (find?_eq_none_iff.mp (by simpa using absent)) nofun ?_,
          Nat.ne_of_gt (lt_length_of_classInfo? isObject)⟩
        intro info isClass
        cases isClass
        exact ⟨isInterface, rfl⟩

private theorem setSuperclass_keeps (other : type ≠ objectType) (superclass : TypeId) :
    Keeps Linked (setSuperclass type superclass) fun _ => True := by
  refine .bind_get fun table _ => (Keeps.inRange fun _ _ => trivial).andThen fun info => ?_
  split
  · exact (requireClass_keeps type).andThen fun _ =>
      setClass_keeps other fun _ => ⟨rfl, rfl, rfl⟩
  · exact .fail _

private theorem addInterface_keeps (other : type ≠ objectType) (interface : TypeId) :
    Keeps Linked (addInterface type interface) fun _ => True := by
  refine .bind_get fun table _ => (Keeps.inRange fun _ _ => trivial).andThen fun info => ?_
  split
  · exact (requireClass_keeps type).andThen fun _ =>
      setClass_keeps other fun _ => ⟨rfl, rfl, rfl⟩
  · exact .fail _

theorem fresh_of_not_any {α : Type} {name : α → String} {entries : List α} {ids : List Nat}
    {new : String} (free : ¬ (ids.any fun id => (entries[id]?).any (name · = new)) = true) :
    ∀ id ∈ ids, ∀ other, entries[id]? = some other → name other ≠ new := by
  intro id member other found same
  exact free (List.any_eq_true.mpr ⟨id, member, by simp [found, same]⟩)

private theorem addField_linked (linked : table.Linked) {declaring : TypeId}
    (other : declaring ≠ objectType) {name : String} (isType : type < table.types.length)
    {isStatic : Bool} {id : FieldId} {after : TypeTable}
    (run : addField declaring name type isStatic table = (.ok id, after)) :
    after.Linked := by
  unfold addField at run
  rw [run_bind] at run
  split at run
  · next info between found =>
      obtain ⟨rfl, isClass⟩ := requireClass_run found
      rw [run_bind, run_get] at run
      dsimp only at run
      split at run
      · rw [run_bind] at run
        split at run
        · cases run
        · cases run
      · next free =>
          cases run
          refine linked.modify (List.append_nil _).symm rfl (fun info => ⟨List.Subset.refl _,
            List.subset_append_left _ _⟩) (fun info' found => ?_) (fun _ _ => .inl)
            fun id field isField => ?_
          · obtain rfl : info = info' := Option.some.inj (isClass.symm.trans found)
            have before := linked.classes declaring info isClass
            exact ⟨fun isObject => absurd isObject other, before.methods,
              before.fields.add rfl (fresh_of_not_any free), before.initializer⟩
          · rcases getElem?_concat_cases isField with earlier | ⟨rfl, rfl⟩
            · exact .inl earlier
            · exact .inr ⟨isType, rfl, info, isClass, List.mem_append_right _ List.mem_cons_self⟩
  · cases run

private theorem addMethod_keeps (method : Method) :
    Keeps Linked (addMethod method) fun _ => True := by
  intro table linked value after run
  unfold addMethod at run
  rw [run_bind] at run
  split at run
  · next info between found =>
      obtain ⟨rfl, isClass⟩ := requireClass_run found
      rw [run_bind, run_get] at run
      dsimp only at run
      split at run
      · rw [run_bind] at run
        split at run
        · cases run
        · cases run
      · next free =>
          cases run
          refine ⟨linked.modify rfl (List.append_nil _).symm (fun info =>
            ⟨List.subset_append_left _ _, List.Subset.refl _⟩) (fun info' found => ?_)
            (fun id other isMethod => ?_) fun _ _ => .inl, trivial⟩
          · obtain rfl : info = info' := Option.some.inj (isClass.symm.trans found)
            have before := linked.classes method.declaring info isClass
            refine ⟨before.root, before.methods.add rfl (fresh_of_not_any free), before.fields,
              fun id isId => ?_⟩
            dsimp only at isId
            split at isId
            · cases isId
              exact List.mem_append_right _ List.mem_cons_self
            · exact List.mem_append_left _ (before.initializer id isId)
          · rcases getElem?_concat_cases isMethod with earlier | ⟨rfl, rfl⟩
            · exact .inl earlier
            · exact .inr ⟨rfl, info, isClass, List.mem_append_right _ List.mem_cons_self⟩
  · cases run

/-- A name that is resolved stands for a type, and no new type has a longer name. -/
theorem resolveWithin_spec (linked : table.Linked) {depth : Nat} {written : String} {id : TypeId}
    {after : TypeTable} (run : resolveWithin depth written table = (.ok id, after)) :
    after.Linked ∧ id < after.types.length ∧ ∀ entry ∈ after.types, entry ∈ table.types ∨
      entry.name.length ≤ (Text.trim written).length := by
  induction depth generalizing written id after with
  | zero => cases run
  | succ depth ih =>
      unfold resolveWithin at run
      rw [run_bind, run_get] at run
      dsimp only at run
      cases found : table.find? (Text.trim written) with
      | some known =>
          rw [found] at run
          cases run
          exact ⟨linked, lt_length_of_find? found, fun _ member => .inl member⟩
      | none =>
          rw [found] at run
          cases isArray : Text.stripBrackets? (Text.trim written) with
          | none =>
              rw [isArray] at run
              dsimp only at run
              split at run
              · cases run
              · cases run
          | some inner =>
              rw [isArray] at run
              dsimp only at run
              split at run
              · cases run
              · rw [run_bind] at run
                split at run
                · next element between ran =>
                    obtain ⟨linked', inRange, shorter⟩ := ih ran
                    cases run
                    have below : (Text.trim inner).length < (Text.trim written).length :=
                      Nat.lt_of_le_of_lt (Text.length_trim_le inner)
                        (Text.length_stripBrackets?_lt isArray)
                    refine ⟨linked'.push ?_ ?_ nofun, by simp, fun entry member => ?_⟩
                    · intro member
                      obtain ⟨entry, listed, same⟩ := List.mem_map.mp member
                      dsimp only at same
                      rcases shorter entry listed with earlier | short
                      · exact find?_eq_none_iff.mp found (same ▸ List.mem_map_of_mem earlier)
                      · rw [same] at short
                        omega
                    · intro other isElement
                      cases isElement
                      exact inRange
                    · rcases List.mem_append.mp member with earlier | new
                      · exact (shorter entry earlier).imp_right fun short => by omega
                      · obtain rfl := List.mem_singleton.mp new
                        exact .inr (Nat.le_refl _)
                · cases run

def defaulted (type : TypeId) (info : ClassInfo) : ClassInfo :=
  if type ≠ objectType ∧ info.superclass = none then { info with superclass := some objectType }
  else info

theorem getElem?_withDefaultSuperclass (type : TypeId) :
    table.withDefaultSuperclass.types[type]? = (table.types[type]?).map fun info =>
      { info with kind := changed (defaulted type) info.kind } := by
  simp only [withDefaultSuperclass, List.getElem?_map, List.getElem?_zipIdx]
  cases table.types[type]? with
  | none => rfl
  | some entry =>
      obtain ⟨name, kind⟩ := entry
      cases kind with
      | declared info =>
          by_cases other : type ≠ objectType ∧ info.superclass = none <;>
            simp [changed, defaulted, other]
      | primitive _ => simp [changed]
      | array _ => simp [changed]

theorem names_withDefaultSuperclass (table : TypeTable) :
    table.withDefaultSuperclass.types.map TypeInfo.name = table.types.map TypeInfo.name := by
  refine List.ext_getElem? fun type => ?_
  rw [List.getElem?_map, getElem?_withDefaultSuperclass, List.getElem?_map, Option.map_map]
  rfl

theorem kind?_withDefaultSuperclass (type : TypeId) :
    table.withDefaultSuperclass.kind? type = (table.kind? type).map (changed fun info =>
      if type ≠ objectType ∧ info.superclass = none then { info with superclass := some objectType }
      else info) := by
  rw [kind?, getElem?_withDefaultSuperclass, kind?, Option.map_map, Option.map_map]
  rfl

theorem classInfo?_withDefaultSuperclass (type : TypeId) :
    table.withDefaultSuperclass.classInfo? type = (table.classInfo? type).map fun info =>
      if type ≠ objectType ∧ info.superclass = none then { info with superclass := some objectType }
      else info := by
  unfold classInfo?
  rw [kind?_withDefaultSuperclass]
  exact bind_classInfo?_changed _ _

private theorem linked_withDefaultSuperclass (linked : table.Linked) :
    table.withDefaultSuperclass.Linked := by
  refine linked.change ⟨List.prefix_rfl, List.prefix_rfl, ?_, ?_⟩ ?_ ?_ ?_ (fun _ _ => .inl)
    (fun _ _ => .inl)
  · simp [withDefaultSuperclass]
  · intro type info found
    rw [classInfo?_withDefaultSuperclass, found]
    refine ⟨_, rfl, ?_⟩
    dsimp only
    split
    · exact ⟨List.Subset.refl _, List.Subset.refl _⟩
    · exact ⟨List.Subset.refl _, List.Subset.refl _⟩
  · rw [names_withDefaultSuperclass]
    exact linked.names
  · intro type element found
    rw [kind?_withDefaultSuperclass] at found
    exact .inl (eq_array_of_changed found)
  · intro type info found
    rw [classInfo?_withDefaultSuperclass] at found
    obtain ⟨before, isBefore, rfl⟩ := Option.map_eq_some_iff.mp found
    have isLinked := linked.classes type before isBefore
    split
    · next other =>
        exact .inr ⟨fun isObject => absurd isObject other.1, isLinked.methods, isLinked.fields,
          isLinked.initializer⟩
    · exact .inl isBefore

end TypeTable

namespace Declaration

open TypeTable

/-- What all operations of a hierarchy pass keep.  The pass attaches nothing to `Object`. -/
structure Kept (holds : TypeTable → Prop) : Prop where
  declareClass : ∀ name isInterface,
    Keeps holds (TypeTable.declareClass name isInterface) fun id => id ≠ objectType
  setSuperclass : ∀ {type}, type ≠ objectType → ∀ superclass,
    Keeps holds (TypeTable.setSuperclass type superclass) fun _ => True
  addInterface : ∀ {type}, type ≠ objectType → ∀ interface,
    Keeps holds (TypeTable.addInterface type interface) fun _ => True
  addField : ∀ {declaring}, declaring ≠ objectType → ∀ name typeName isStatic,
    Keeps holds (do
      let type ← TypeTable.resolveType typeName
      let _ ← TypeTable.addField declaring name type isStatic) fun _ => True
  addMethod : ∀ method, Keeps holds (TypeTable.addMethod method) fun _ => True
  resolveType : ∀ name, Keeps holds (TypeTable.resolveType name) fun _ => True

theorem kept_linked : Kept Linked where
  declareClass := declareClass_keeps
  setSuperclass := setSuperclass_keeps
  addInterface := addInterface_keeps
  addField := by
    intro declaring other name typeName isStatic table linked _ after run
    rw [run_bind] at run
    split at run
    · next type between resolved =>
        obtain ⟨linked', isType, _⟩ := resolveWithin_spec linked resolved
        rw [run_bind] at run
        split at run
        · next added =>
            cases run
            exact ⟨addField_linked linked' other isType added, trivial⟩
        · cases run
    · cases run
  addMethod := addMethod_keeps
  resolveType := fun _ _ linked _ _ run => ⟨(resolveWithin_spec linked run).1, trivial⟩

namespace Kept

variable {holds : TypeTable → Prop} (kept : Kept holds)

include kept

private theorem resolveDimensions (dims : Nat) (name : String) :
    Keeps holds (resolveDimensions dims name) fun _ => True := by
  induction dims generalizing name with
  | zero => exact (kept.resolveType _).andThen fun _ => .pure trivial
  | succ dims ih => exact (kept.resolveType _).andThen fun _ => ih _

private theorem declareSupertypes (declared : Class) {id : TypeId} (other : id ≠ objectType) :
    Keeps holds (declareSupertypes declared id) fun _ => True := by
  refine (Keeps.option_forM fun name => ?_).andThen fun _ => .forM fun name _ => ?_
  · exact (kept.resolveType _).andThen fun _ => kept.setSuperclass other _
  · exact (kept.resolveType _).andThen fun _ => kept.addInterface other _

private theorem resolveReturn (name : Option String) :
    Keeps holds (resolveReturn name) fun _ => True := by
  unfold Declaration.resolveReturn
  split
  · exact .pure trivial
  · exact .pure trivial
  · exact (kept.resolveType _).andThen fun _ => .pure trivial

private theorem declareMethod (declaring : TypeId) (method : Method) :
    Keeps holds (declareMethod declaring method) fun _ => True := by
  refine (Keeps.mapM fun param _ => kept.resolveType _).andThen fun params => ?_
  refine (kept.resolveReturn _).andThen fun returns => (kept.addMethod _).andThen fun _ => ?_
  have resolves : ∀ name, Keeps holds (do let _ ← TypeTable.resolveType name) fun _ => True :=
    fun name => (kept.resolveType name).andThen fun _ => .pure trivial
  refine (Keeps.forM fun declared _ => resolves _).andThen fun _ => ?_
  refine (Keeps.forM fun declared _ => resolves _).andThen fun _ => ?_
  exact .forM fun entry _ => .option_forM fun type => kept.resolveDimensions _ _

private theorem declareMembers (declared : Class) {id : TypeId} (other : id ≠ objectType) :
    Keeps holds (declareMembers declared id) fun _ => True :=
  (Keeps.forM fun _ _ => kept.addField other _ _ _).andThen fun _ =>
    .forM fun _ _ => kept.declareMethod _ _

theorem declareTypes (program : Program) : Keeps holds program.declareTypes fun _ => True := by
  refine (Keeps.mapM_all fun declared _ => kept.declareClass _ _).bind fun ids others => ?_
  refine (Keeps.forM fun entry member => ?_).andThen fun _ => .forM fun entry member => ?_
  · exact kept.declareSupertypes _ (others _ (List.of_mem_zip member).2)
  · exact kept.declareMembers _ (others _ (List.of_mem_zip member).2)

end Kept

theorem hierarchy_cases {program : Program} {hierarchy : Hierarchy}
    (built : program.hierarchy = .ok hierarchy) :
    hierarchy.table.Linked ∧ hierarchy.supertypes =
      (List.range hierarchy.table.types.length).map hierarchy.table.supertypesOf := by
  unfold Program.hierarchy at built
  split at built
  · next table run =>
      cases built
      exact ⟨linked_withDefaultSuperclass
        (kept_linked.declareTypes program _ linked_initial () table run).1, rfl⟩
  · cases built

end Declaration

end ObjectFlow
