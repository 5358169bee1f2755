import ObjectFlow.Proofs.Hierarchy.Sketching
import ObjectFlow.Proofs.Hierarchy.Subtyping

/-!
# Spellings of array types

The name of an array type ends in brackets, and only the blanks around a name
are taken off before it is looked up.  So blanks before the brackets stay in the
name, and there are as many array types over one type as there are ways to spell
them.  Arrays of primitive types that are spelled differently are not even
assignable to each other.
-/

namespace ObjectFlow

/-- A name followed by brackets, with blanks before each pair of them, before the last one first. -/
def Text.spell (name : String) : List String → String
  | [] => name
  | gap :: gaps => spell name gaps ++ gap ++ "[]"

namespace TypeTable

open Effect

variable {table later : TypeTable} {type : TypeId}

/-! ## Names of a table -/

structure Spelled (table : TypeTable) : Prop where
  names : (table.types.map TypeInfo.name).Nodup
  arrays : ∀ type element, table.kind? type = some (.array element) →
    ∃ name gap, table.typeName? element = some name ∧ Text.Blank gap ∧
      table.typeName? type = some (name ++ gap ++ "[]")

private theorem spelled_initial : initial.Spelled := by
  have elements : ∀ type < initial.types.length,
      (initial.kind? type).bind TypeKind.element? = none := by decide
  refine ⟨by decide, fun type element isArray => ?_⟩
  have none := elements type (lt_length_of_kind? isArray)
  rw [isArray] at none
  cases none

theorem typeName?_push_of_some {entry : TypeInfo} {name : String}
    (isName : table.typeName? type = some name) :
    { table with types := table.types ++ [entry] }.typeName? type = some name := by
  obtain ⟨info, isThere, rfl⟩ := exists_getElem?_of_typeName? isName
  refine typeName?_of_getElem? ?_
  rw [List.getElem?_append_left (List.getElem?_eq_some_iff.mp isThere).1]
  exact isThere

theorem Spelled.push (spelled : table.Spelled) {entry : TypeInfo}
    (fresh : entry.name ∉ table.types.map TypeInfo.name)
    (array : ∀ element, entry.kind = .array element → ∃ name gap,
      table.typeName? element = some name ∧ Text.Blank gap ∧
        entry.name = name ++ gap ++ "[]") :
    { table with types := table.types ++ [entry] }.Spelled := by
  refine ⟨?_, fun type element isArray => ?_⟩
  · rw [List.map_append, List.map_singleton, List.nodup_append]
    refine ⟨spelled.names, List.nodup_singleton _, ?_⟩
    rintro _ member _ last rfl
    exact fresh (List.mem_singleton.mp last ▸ member)
  · rw [kind?_push] at isArray
    split at isArray
    · next isNew =>
        obtain ⟨name, gap, isName, blank, same⟩ := array element (Option.some.inj isArray)
        refine ⟨name, gap, typeName?_push_of_some isName, blank, ?_⟩
        rw [isNew, typeName?_push, same]
    · obtain ⟨name, gap, isName, blank, isArrayName⟩ := spelled.arrays type element isArray
      exact ⟨name, gap, typeName?_push_of_some isName, blank, typeName?_push_of_some isArrayName⟩

private theorem Spelled.change (spelled : table.Spelled) {change : ClassInfo → ClassInfo}
    (types : later.types = (table.changeClass type change).types) : later.Spelled := by
  have names : later.types.map TypeInfo.name = table.types.map TypeInfo.name := by
    rw [types]
    exact names_modify table.types type
  have sameName : ∀ other, later.typeName? other = table.typeName? other := by
    intro other
    rw [typeName?, typeName?, ← List.getElem?_map, names, List.getElem?_map]
  refine ⟨names ▸ spelled.names, fun other element isArray => ?_⟩
  simp only [sameName]
  rw [kind?_of_types types] at isArray
  split at isArray
  · exact spelled.arrays other element (eq_array_of_changed isArray)
  · exact spelled.arrays other element isArray

/-! ## Names that are resolved -/

/-- Resolving a text answers with the type of its trimmed name.  New names are no longer than that
one. -/
theorem Interns.spelled {written : String} {id : TypeId} (interns : table.Interns written id later)
    (spelled : table.Spelled) :
    later.Spelled ∧ later.typeName? id = some (Text.trim written) ∧
      ∀ name ∈ later.types.map TypeInfo.name, name ∈ table.types.map TypeInfo.name ∨
        name.length ≤ (Text.trim written).length := by
  induction interns with
  | known found =>
      exact ⟨spelled, (find?_eq_some_iff spelled.names).mp found, fun _ member => .inl member⟩
  | @array between written inner element isNew isArray _ interns ih =>
      obtain ⟨between', isName, short⟩ := ih
      have shorter : (Text.trim inner).length < (Text.trim written).length :=
        Nat.lt_of_le_of_lt (Text.length_trim_le inner) (Text.length_stripBrackets?_lt isArray)
      refine ⟨between'.push ?_ ?_, typeName?_push _, fun name member => ?_⟩
      · intro member
        rcases short _ member with old | short
        · exact find?_eq_none_iff.mp isNew old
        · exact Nat.not_le_of_lt shorter short
      · rintro _ same
        cases same
        obtain ⟨gap, split, blank⟩ := Text.exists_blank_end (Text.trim_trim written) isArray
        exact ⟨_, gap, isName, blank, by
          rw [← split]
          exact Text.stripBrackets?_eq_some_iff.mp isArray⟩
      · rw [List.map_append, List.mem_append] at member
        rcases member with member | last
        · exact (short name member).imp_right fun short => by omega
        · exact .inr (by simp at last; rw [last])

private theorem Interns.stays {written : String} {id : TypeId}
    (interns : table.Interns written id later) : table.Stays later := by
  induction interns with
  | known _ => exact .refl _
  | array _ _ _ _ ih =>
      exact ih.trans ⟨typeName?_push_of_some, List.prefix_rfl, List.prefix_rfl⟩

private theorem Spelled.run (spelled : table.Spelled) (operation : Operation) :
    (operation.run table).2.Spelled := by
  cases operation with
  | declareClass name isInterface =>
      refine (state_discard _ table).symm ▸ ?_
      obtain ⟨_, failed⟩ | ⟨isNew, _, _, ran⟩ := declareClass_cases table name isInterface
      · rwa [failed]
      · rw [ran]
        exact spelled.push (find?_eq_none_iff.mp isNew) nofun
  | setSuperclass type superclass =>
      obtain ⟨_, failed⟩ | ⟨_, _, ran⟩ := setSuperclass_cases table type superclass
      · rwa [Operation.run, failed]
      · rw [Operation.run, ran]
        exact spelled.change rfl
  | addInterface type interface =>
      obtain ⟨_, failed⟩ | ⟨_, _, ran⟩ := addInterface_cases table type interface
      · rwa [Operation.run, failed]
      · rw [Operation.run, ran]
        exact spelled.change rfl
  | addField declaring name type isStatic =>
      refine (state_discard _ table).symm ▸ ?_
      obtain ⟨_, failed⟩ | ⟨_, _, _, ran⟩ := addField_cases table ⟨declaring, name, type, isStatic⟩
      · rwa [failed]
      · rw [ran]
        exact spelled.change rfl
  | addMethod method =>
      refine (state_discard _ table).symm ▸ ?_
      obtain ⟨_, failed⟩ | ⟨_, _, _, declared, _, ran⟩ := addMethod_cases table method
      · rwa [failed]
      · rw [ran]
        exact spelled.change rfl
  | resolveType name =>
      refine (state_discard _ table).symm ▸ ?_
      obtain ⟨_, failed⟩ | ⟨_, _, ran, interns⟩ := resolveWithin_cases table (name.length + 1) name
      · rwa [TypeTable.resolveType, failed]
      · rw [TypeTable.resolveType, ran]
        exact (interns.spelled spelled).1

theorem spelled_after (operations : List Operation) : (after operations).Spelled := by
  induction operations using List.reverseRecOn with
  | nil => exact spelled_initial
  | append_singleton operations operation ih =>
      rw [after_concat]
      exact ih.run operation

private theorem resolveType_spelled (spelled : table.Spelled) {text : String} {id : TypeId}
    (run : resolveType text table = (.ok id, later)) :
    later.Spelled ∧ later.typeName? id = some (Text.trim text) ∧ table.Stays later := by
  obtain ⟨_, failed⟩ | ⟨_, _, ran, interns⟩ := resolveWithin_cases table (text.length + 1) text
  · cases run.symm.trans failed
  · cases run.symm.trans ran
    obtain ⟨spelled, isName, _⟩ := interns.spelled spelled
    exact ⟨spelled, isName, interns.stays⟩

/-! ## Arrays of arrays -/

/-- The type is a base type, or an array over one, with the blanks that stand before each pair of
brackets, those of the outermost dimension first. -/
inductive ArrayOf (table : TypeTable) (base : TypeId) : List String → TypeId → Prop
  | base : ArrayOf table base [] base
  | array {type element : TypeId} {name gap : String} {gaps : List String}
      (isArray : table.kind? type = some (.array element))
      (isElement : table.typeName? element = some name)
      (isName : table.typeName? type = some (name ++ gap ++ "[]"))
      (wraps : ArrayOf table base gaps element) : ArrayOf table base (gap :: gaps) type

variable {base first second : TypeId} {gaps gaps' : List String}

theorem ArrayOf.eq_iff (spelled : table.Spelled) (wraps : table.ArrayOf base gaps first)
    (wraps' : table.ArrayOf base gaps' second) (length : gaps.length = gaps'.length) :
    first = second ↔ gaps = gaps' := by
  induction wraps generalizing gaps' second with
  | base =>
      cases wraps' with
      | base => simp
      | array => cases length
  | @array type element name gap gaps isArray isElement isName wraps ih =>
      cases wraps' with
      | base => cases length
      | @array _ element' name' gap' gaps' isArray' isElement' isName' wraps' =>
          have elements := ih wraps' (Nat.succ.inj length)
          constructor
          · rintro rfl
            cases isArray.symm.trans isArray'
            cases isElement.symm.trans isElement'
            have same := Option.some.inj (isName.symm.trans isName')
            rw [elements.mp rfl, (by simpa using same : gap = gap')]
          · intro same
            cases same
            obtain rfl := elements.mpr rfl
            cases isElement.symm.trans isElement'
            exact typeName?_unique spelled.names isName isName'

theorem ArrayOf.judged_iff (spelled : table.Spelled) (grounded : table.Grounded)
    (wraps : table.ArrayOf base gaps first) (wraps' : table.ArrayOf base gaps' second)
    (length : gaps.length = gaps'.length) :
    table.build.table.Judged first second ↔
      table.IsReference base ∨ gaps.getLast? = gaps'.getLast? := by
  have reference : ∀ {type}, table.build.table.IsReference type ↔ table.IsReference type :=
    isReference_withDefaultSuperclass
  -- arrays are judged by their elements, so what counts are the brackets next to the base
  induction wraps generalizing gaps' second with
  | base =>
      cases wraps' with
      | base => exact ⟨fun _ => .inr rfl, fun _ => .inherits .refl⟩
      | array => cases length
  | @array type element name gap gaps isArray isElement isName wraps ih =>
      have all := (ArrayOf.array isArray isElement isName wraps).eq_iff spelled wraps' length
      by_cases same : type = second
      · rw [all.mp same]
        exact ⟨fun _ => .inr rfl, fun _ => same ▸ .inherits .refl⟩
      cases wraps' with
      | base => cases length
      | @array _ element' name' gap' gaps' isArray' isElement' isName' wraps' =>
          have elements : table.build.table.Judged element element' ↔
              table.IsReference base ∨ gaps.getLast? = gaps'.getLast? :=
            ih wraps' (Nat.succ.inj length)
          have judged : table.build.table.Judged type second ↔
              table.build.table.IsReference element ∧ table.build.table.IsReference element' ∧
                table.build.table.Judged element element' :=
            Hierarchy.judged_arrays_iff grounded.withDefaultSuperclass same
              (kind?_withDefaultSuperclass_array.mpr isArray)
              (kind?_withDefaultSuperclass_array.mpr isArray')
          rw [judged, reference, reference, elements]
          cases wraps with
          | base =>
              cases wraps' with
              | array => cases length
              | base =>
                  have differ : gap ≠ gap' := fun same' => same (all.mpr (by rw [same']))
                  simp [differ]
          | array inner =>
              cases wraps' with
              | base => cases length
              | array inner' =>
                  have isReference : table.IsReference element := ⟨_, inner, rfl⟩
                  have isReference' : table.IsReference element' := ⟨_, inner', rfl⟩
                  simp [isReference, isReference']

private theorem ArrayOf.name (wraps : table.ArrayOf base gaps type) {name : String}
    (isName : table.typeName? base = some name) :
    table.typeName? type = some (Text.spell name gaps) := by
  induction wraps with
  | base => exact isName
  | array _ isElement isArrayName _ ih =>
      cases isElement.symm.trans ih
      exact isArrayName

private theorem ArrayOf.blank (spelled : table.Spelled) (wraps : table.ArrayOf base gaps type) :
    ∀ gap ∈ gaps, Text.Blank gap := by
  induction wraps with
  | base => simp
  | @array type element name gap gaps isArray isElement isName _ ih =>
      obtain ⟨_, gap', isElement', blank, isName'⟩ := spelled.arrays type element isArray
      cases isElement.symm.trans isElement'
      have same := Option.some.inj (isName.symm.trans isName')
      obtain rfl : gap = gap' := by simpa using same
      exact List.forall_mem_cons.mpr ⟨blank, ih⟩

/-- An array type is determined by its base type and by the blanks before the brackets of its name,
so two names resolve to one type only if they are the same up to the blanks around them.  Two array
types of as many dimensions over one type are assignable to each other if that is a reference type,
and else only if their innermost brackets are spelled alike. -/
theorem arrays_by_spelling (operations : List Operation) :
    let table := after operations
    (∀ type element, table.kind? type = some (.array element) →
      ∃ gap, table.ArrayOf element [gap] type) ∧
    (∀ base gaps type, table.ArrayOf base gaps type → (∀ gap ∈ gaps, Text.Blank gap) ∧
      ∀ name, table.typeName? base = some name →
        table.typeName? type = some (Text.spell name gaps)) ∧
    (∀ base gaps gaps' first second, table.ArrayOf base gaps first →
      table.ArrayOf base gaps' second → gaps.length = gaps'.length →
        (first = second ↔ gaps = gaps') ∧
        (table.build.isSubtype? first second = some true ↔
          table.IsReference base ∨ gaps.getLast? = gaps'.getLast?)) ∧
    ∀ text text' id id' between later, resolveType text table = (.ok id, between) →
      resolveType text' between = (.ok id', later) →
        later.typeName? id = some (Text.trim text) ∧
        later.typeName? id' = some (Text.trim text') ∧
        (id = id' ↔ Text.trim text = Text.trim text') := by
  intro table
  have spelled : table.Spelled := spelled_after operations
  have grounded : table.Grounded := grounded_after operations
  refine ⟨fun type element isArray => ?_, fun base gaps type wraps => ?_,
    fun base gaps gaps' first second wraps wraps' length => ?_,
    fun text text' id id' between later run run' => ?_⟩
  · obtain ⟨name, gap, isElement, _, isName⟩ := spelled.arrays type element isArray
    exact ⟨gap, .array isArray isElement isName .base⟩
  · exact ⟨wraps.blank spelled, fun name isName => wraps.name isName⟩
  · refine ⟨wraps.eq_iff spelled wraps' length, ?_⟩
    rw [← wraps.judged_iff spelled grounded wraps' length]
    exact Hierarchy.isSubtype?_iff_judged grounded.withDefaultSuperclass rfl
  · obtain ⟨spelled, isName, _⟩ := resolveType_spelled spelled run
    obtain ⟨spelled, isName', stays⟩ := resolveType_spelled spelled run'
    have isName := stays.names isName
    refine ⟨isName, isName', ?_, fun same => ?_⟩
    · rintro rfl
      exact Option.some.inj (isName.symm.trans isName')
    · rw [same] at isName
      exact typeName?_unique spelled.names isName isName'

def spacedOperations : List Operation := [.resolveType "int[][]", .resolveType "int [] []"]

theorem arrays_by_spelling_spaced :
    let table := after spacedOperations
    table.typeName? 11 = some (Text.spell "int" ["", ""]) ∧
    table.typeName? 13 = some (Text.spell "int" [" ", " "]) ∧
    table.build.isSubtype? 11 13 ≠ some true ∧
    ∃ between later, resolveType "Object[]" table = (.ok 14, between) ∧
      resolveType " Object[] " between = (.ok 14, later) ∧
      later.typeName? 14 = some (Text.trim " Object[] ") := by
  obtain ⟨_, named, unique, resolved⟩ := arrays_by_spelling spacedOperations
  have known : (after spacedOperations).typeName? 4 = some "int" ∧
      ((after spacedOperations).kind? 10 = some (.array 4) ∧
        (after spacedOperations).typeName? 10 = some "int[]") ∧
      ((after spacedOperations).kind? 11 = some (.array 10) ∧
        (after spacedOperations).typeName? 11 = some "int[][]") ∧
      ((after spacedOperations).kind? 12 = some (.array 4) ∧
        (after spacedOperations).typeName? 12 = some "int []") ∧
      (after spacedOperations).kind? 13 = some (.array 12) ∧
        (after spacedOperations).typeName? 13 = some "int [] []" := by
    decide +kernel
  obtain ⟨isInt, ⟨isRow, isRowName⟩, ⟨isTable, isTableName⟩, ⟨isRow', isRowName'⟩, isTable',
    isTableName'⟩ := known
  have plain : (after spacedOperations).ArrayOf 4 ["", ""] 11 :=
    .array isTable isRowName isTableName (.array isRow isInt isRowName .base)
  have spaced : (after spacedOperations).ArrayOf 4 [" ", " "] 13 :=
    .array isTable' isRowName' isTableName' (.array isRow' isInt isRowName' .base)
  refine ⟨(named _ _ _ plain).2 _ isInt, (named _ _ _ spaced).2 _ isInt, fun isSubtype => ?_, ?_⟩
  · rcases (unique _ _ _ _ _ plain spaced rfl).2.mp isSubtype with
      ⟨kind, isKind, isReference⟩ | same
    · have isPrimitive : (after spacedOperations).kind? 4 = some (.primitive .int) := by
        decide +kernel
      cases isKind.symm.trans isPrimitive
      cases isReference
    · exact absurd same (by decide)
  · have run : ((resolveType "Object[]" (after spacedOperations)).1).toOption = some 14 := by
      decide +kernel
    have run' : ((resolveType " Object[] "
        (resolveType "Object[]" (after spacedOperations)).2).1).toOption = some 14 := by
      decide +kernel
    generalize isBetween : (resolveType "Object[]" (after spacedOperations)).2 = between at run'
    obtain ⟨later, isLater⟩ : ∃ later, (resolveType " Object[] " between).2 = later := ⟨_, rfl⟩
    have ran : resolveType "Object[]" (after spacedOperations) = (.ok 14, between) :=
      Prod.ext (toOption_eq_some.mp run) isBetween
    have ran' : resolveType " Object[] " between = (.ok 14, later) :=
      Prod.ext (toOption_eq_some.mp run') isLater
    exact ⟨between, later, ran, ran', (resolved _ _ _ _ _ _ ran ran').2.1⟩

theorem arrays_spelled_twice :
    let table := after [.resolveType "int[]", .resolveType "int []"]
    (resolveType "int[]" table).1 = .ok 10 ∧ (resolveType "int []" table).1 = .ok 11 ∧
    table.kind? 10 = some (.array 4) ∧ table.kind? 11 = some (.array 4) ∧
    table.build.isSubtype? 10 11 = some false ∧ table.build.isSubtype? 11 10 = some false := by
  refine ⟨toOption_eq_some.mp (by decide +kernel), toOption_eq_some.mp (by decide +kernel), ?_⟩
  decide +kernel

end TypeTable

end ObjectFlow
