import Mathlib.Data.List.Pairwise
import Mathlib.Tactic.MkIffOfInductiveProp
import ObjectFlow.Proofs.Graph.Fact
import ObjectFlow.Proofs.Hierarchy.ByName
import ObjectFlow.Proofs.Hierarchy.Ranges
import ObjectFlow.Proofs.Interning
import ObjectFlow.Proofs.Text.Splitting
import ObjectFlow.Program.Basic

/-!
# Programs with telling names

Methods, variables, objects and nodes are described by names that are put
together from those that a program declares.  In a legible program the declared
names are free of the separators, no local has the name of another variable of
its method, and no type has two fields of one name.  Then what has the same
description is the same.
-/

namespace ObjectFlow

def Text.Free (characters : List Char) (text : String) : Prop := ∀ c ∈ characters, c ∉ text.toList

instance (characters : List Char) (text : String) : Decidable (Text.Free characters text) :=
  -- by name: where all characters can be gone through, that would be tried first
  List.decidableBAll (fun c => c ∉ text.toList) characters

theorem Text.Free.mono {characters fewer : List Char} {text : String} (free : Free characters text)
    (subset : fewer ⊆ characters) : Free fewer text :=
  fun c listed => free c (subset listed)

namespace VariableOrigin

/-- The method that a variable belongs to and the name of the variable in it; a static field belongs
to none. -/
def owned? : VariableOrigin → Option (MethodId × String)
  | .local method name => some (method, name)
  | .staticField _ => none
  | .formal method index => some (method, s!"formal{index}")
  | .result method => some (method, "return")
  | .exception method => some (method, "exception")
  | .callException method site => some (method, s!"CallException@{site}")

def Telling (origins : List VariableOrigin) : VariableOrigin → Prop
  | .local method name => Text.Free [' '] name ∧
      ∀ other ∈ origins, other.owned? = some (method, name) → other = .local method name
  | _ => True

instance (origins : List VariableOrigin) : (origin : VariableOrigin) →
    Decidable (origin.Telling origins)
  | .local method name => inferInstanceAs (Decidable (Text.Free [' '] name ∧
      ∀ other ∈ origins, other.owned? = some (method, name) → other = .local method name))
  | .staticField _ | .formal _ _ | .result _ | .exception _ | .callException _ _ =>
      inferInstanceAs (Decidable True)

end VariableOrigin

/-- The names of the program tell what they are put together from. -/
@[mk_iff]
structure Program.Legible (program : Program) : Prop where
  types : ∀ info ∈ program.hierarchy.table.types, Text.Free [' ', ':', '#', '('] info.name
  methods : ∀ method ∈ program.hierarchy.table.methods, Text.Free [' ', ':', '#', '.'] method.name
  fields : ∀ field ∈ program.hierarchy.table.fields, Text.Free [' ', ':', '.'] field.name
  locals : ∀ origin ∈ program.variableTable.keys, origin.Telling program.variableTable.keys
  unshadowed : ∀ type ∈ program.hierarchy.typeIds, program.hierarchy.table.fields.Pairwise
    fun field other => program.hierarchy.isSubtype? type field.declaring = some true →
      program.hierarchy.isSubtype? type other.declaring = some true → field.name ≠ other.name

instance (program : Program) : Decidable program.Legible :=
  decidable_of_iff _ (Program.legible_iff program).symm

/-! ## Names in the hierarchy -/

namespace Hierarchy

variable {hierarchy : Hierarchy}

theorem Linked.typeName?_injective (linked : hierarchy.Linked) {type other : TypeId} {name : String}
    (found : hierarchy.typeName? type = some name)
    (found' : hierarchy.typeName? other = some name) : type = other :=
  TypeTable.typeName?_unique linked.table.names found found'

theorem Linked.method_eq (linked : hierarchy.Linked) {id other : MethodId} {method method' : Method}
    (found : hierarchy.method? id = some method) (found' : hierarchy.method? other = some method')
    (sameClass : method.declaring = method'.declaring) (sameName : method.name = method'.name) :
    id = other := by
  obtain ⟨info, isClass, listed⟩ := linked.table.methods id method found
  obtain ⟨info', isClass', listed'⟩ := linked.table.methods other method' found'
  rw [← sameClass] at isClass'
  cases isClass.symm.trans isClass'
  exact (linked.table.classes _ info isClass).methods.distinct id listed other listed' _ _ found
    found' sameName

private theorem Linked.field_eq (linked : hierarchy.Linked) {id other : FieldId}
    {field field' : Field} (found : hierarchy.field? id = some field)
    (found' : hierarchy.field? other = some field') (sameClass : field.declaring = field'.declaring)
    (sameName : field.name = field'.name) : id = other := by
  obtain ⟨_, info, isClass, listed⟩ := linked.table.fields id field found
  obtain ⟨_, info', isClass', listed'⟩ := linked.table.fields other field' found'
  rw [← sameClass] at isClass'
  cases isClass.symm.trans isClass'
  exact (linked.table.classes _ info isClass).fields.distinct id listed other listed' _ _ found
    found' sameName

end Hierarchy

namespace Program.Legible

open Text

variable {program : Program}

theorem typeName?_free (legible : program.Legible) {type : TypeId} {name : String}
    (found : program.hierarchy.typeName? type = some name) : Free [' ', ':', '#', '('] name := by
  obtain ⟨info, isInfo, rfl⟩ := Option.map_eq_some_iff.mp found
  exact legible.types info (List.mem_of_getElem? isInfo)

theorem free_qualified (legible : program.Legible) {type : TypeId} {className name : String}
    (isName : program.hierarchy.typeName? type = some className) {characters : List Char}
    (subset : characters ⊆ [' ', ':', '#', '(']) (free : Free characters name) :
    Free characters s!"{className}.{name}" := by
  intro c listed member
  have ofClass := legible.typeName?_free isName c (subset listed)
  have parts : (s!"{className}.{name}").toList = className.toList ++ '.' :: name.toList := by simp
  rw [parts, List.mem_append, List.mem_cons] at member
  rcases member with inClass | rfl | inName
  · exact ofClass inClass
  · exact absurd (subset listed) (by decide)
  · exact free c listed inName

private theorem head_qualified (legible : program.Legible) {type : TypeId} {className : String}
    (isName : program.hierarchy.typeName? type = some className) (name : String)
    (rest : List Char) :
    ((s!"{className}.{name}").toList ++ rest).head? ≠ some '(' := by
  have ofClass := legible.typeName?_free isName '(' (by simp)
  cases isText : className.toList with
  | nil => simp [isText]
  | cons c _ =>
      rw [isText] at ofClass
      simp only [List.mem_cons, not_or] at ofClass
      simp [isText, Ne.symm ofClass.1]

theorem qualified_inj {className other name another : String} (free : Free ['.'] name)
    (freeOther : Free ['.'] another) (same : s!"{className}.{name}" = s!"{other}.{another}") :
    className = other ∧ name = another := by
  have texts : className.toList ++ '.' :: name.toList = other.toList ++ '.' :: another.toList := by
    simpa using congrArg String.toList same
  obtain ⟨sameClass, sameName⟩ := split_last (free '.' (by simp)) (freeOther '.' (by simp)) texts
  exact ⟨String.toList_inj.mp sameClass, String.toList_inj.mp sameName⟩

theorem describeMethod?_cases {id : MethodId} {name : String}
    (found : program.describeMethod? id = some name) : ∃ method className,
    program.hierarchy.method? id = some method ∧
      program.hierarchy.typeName? method.declaring = some className ∧
      name = s!"{className}.{method.name}" := by
  obtain ⟨method, isMethod, found⟩ := Option.bind_eq_some_iff.mp found
  obtain ⟨className, isName, same⟩ := Option.bind_eq_some_iff.mp found
  cases same
  exact ⟨method, className, isMethod, isName, rfl⟩

theorem describeMethod?_free (legible : program.Legible) {id : MethodId} {name : String}
    (found : program.describeMethod? id = some name) : Free [' ', ':', '#'] name := by
  obtain ⟨method, className, isMethod, isName, rfl⟩ := describeMethod?_cases found
  have own := legible.methods method (List.mem_of_getElem? isMethod)
  exact legible.free_qualified isName (by simp) (own.mono (by simp))

theorem describeMethod?_injective (legible : program.Legible) (linked : program.hierarchy.Linked)
    {id other : MethodId} {name : String} (found : program.describeMethod? id = some name)
    (found' : program.describeMethod? other = some name) : id = other := by
  obtain ⟨method, className, isMethod, isName, rfl⟩ := describeMethod?_cases found
  obtain ⟨method', className', isMethod', isName', same⟩ := describeMethod?_cases found'
  have free := legible.methods method (List.mem_of_getElem? isMethod)
  have free' := legible.methods method' (List.mem_of_getElem? isMethod')
  obtain ⟨rfl, sameName⟩ := qualified_inj (free.mono (by simp)) (free'.mono (by simp)) same
  exact linked.method_eq isMethod isMethod' (linked.typeName?_injective isName isName') sameName

/-! ## Variables -/

theorem describeVariable?_cases {id : VariableId} {name : String}
    (found : program.describeVariable? id = some name) : ∃ origin,
    program.variableTable.key? id = some origin ∧
      ((∃ method own owner, origin.owned? = some (method, own) ∧
        program.describeMethod? method = some owner ∧
        name.toList = owner.toList ++ ':' :: own.toList) ∨
      ∃ number field className, origin = .staticField number ∧
        program.hierarchy.field? number = some field ∧
        program.hierarchy.typeName? field.declaring = some className ∧
        name = s!"{className}.{field.name}") := by
  obtain ⟨origin, isKey, found⟩ := Option.bind_eq_some_iff.mp found
  refine ⟨origin, isKey, ?_⟩
  cases origin with
  | staticField number =>
      obtain ⟨field, isField, found⟩ := Option.bind_eq_some_iff.mp found
      obtain ⟨className, isName, same⟩ := Option.bind_eq_some_iff.mp found
      cases same
      exact .inr ⟨number, field, className, rfl, isField, isName, rfl⟩
  | _ =>
      obtain ⟨owner, isOwner, same⟩ := Option.bind_eq_some_iff.mp found
      cases same
      exact .inl ⟨_, _, owner, rfl, isOwner, by simp⟩

private theorem eq_of_owned? {origin other : VariableOrigin} (isOther : origin.isLocal = false)
    (isOther' : other.isLocal = false) {method : MethodId} {own : String}
    (isOwned : origin.owned? = some (method, own)) (isOwned' : other.owned? = some (method, own)) :
    origin = other := by
  cases origin <;> cases isOther <;> cases isOwned <;> cases other <;> cases isOther' <;>
    simp [VariableOrigin.owned?, ← String.toList_inj] at isOwned' <;> simp [isOwned']

private theorem origin_eq (legible : program.Legible) {origin other : VariableOrigin}
    (member : origin ∈ program.variableTable.keys) (member' : other ∈ program.variableTable.keys)
    {method : MethodId} {own : String} (isOwned : origin.owned? = some (method, own))
    (isOwned' : other.owned? = some (method, own)) : origin = other := by
  have tells : ∀ {origin other : VariableOrigin}, origin ∈ program.variableTable.keys →
      other ∈ program.variableTable.keys → origin.owned? = some (method, own) →
      other.owned? = some (method, own) → origin.isLocal = true → other = origin := by
    intro origin other member member' isOwned isOwned' isLocal
    have telling := legible.locals origin member
    cases origin with
    | «local» _ _ =>
        cases isOwned
        exact telling.2 other member' isOwned'
    | _ => cases isLocal
  cases isLocal : origin.isLocal with
  | true => exact (tells member member' isOwned isOwned' isLocal).symm
  | false =>
      cases isLocal' : other.isLocal with
      | true => exact tells member' member isOwned' isOwned isLocal'
      | false => exact eq_of_owned? isLocal isLocal' isOwned isOwned'

theorem field_free (legible : program.Legible) {number : FieldId} {field : Field}
    {className : String} (isField : program.hierarchy.field? number = some field)
    (isName : program.hierarchy.typeName? field.declaring = some className) :
    Free [' ', ':'] s!"{className}.{field.name}" := by
  have own := legible.fields field (List.mem_of_getElem? isField)
  exact legible.free_qualified isName (by simp) (own.mono (by simp))

theorem describeVariable?_injective (legible : program.Legible) (linked : program.hierarchy.Linked)
    {id other : VariableId} {name : String} (found : program.describeVariable? id = some name)
    (found' : program.describeVariable? other = some name) : id = other := by
  obtain ⟨origin, isKey, described⟩ := describeVariable?_cases found
  obtain ⟨origin', isKey', described'⟩ := describeVariable?_cases found'
  suffices origin = origin' by
    subst this
    exact Interner.key?_injective isKey isKey'
  rcases described with ⟨method, own, owner, isOwned, isOwner, parts⟩ |
      ⟨number, field, className, rfl, isField, isName, rfl⟩ <;>
    rcases described' with ⟨method', own', owner', isOwned', isOwner', parts'⟩ |
      ⟨number', field', className', rfl, isField', isName', same⟩
  · have free := legible.describeMethod?_free isOwner ':' (by simp)
    have free' := legible.describeMethod?_free isOwner' ':' (by simp)
    obtain ⟨sameOwner, sameOwn⟩ := split_first free free' (parts.symm.trans parts')
    obtain rfl := String.toList_inj.mp sameOwner
    obtain rfl := String.toList_inj.mp sameOwn
    obtain rfl := legible.describeMethod?_injective linked isOwner isOwner'
    exact legible.origin_eq (Interner.mem_keys_iff.mpr ⟨id, isKey⟩)
      (Interner.mem_keys_iff.mpr ⟨other, isKey'⟩) isOwned isOwned'
  · refine absurd ?_ (legible.field_free isField' isName' ':' (by simp))
    rw [← same, parts]
    simp
  · refine absurd ?_ (legible.field_free isField isName ':' (by simp))
    rw [parts']
    simp
  · have free := legible.fields field (List.mem_of_getElem? isField)
    have free' := legible.fields field' (List.mem_of_getElem? isField')
    obtain ⟨rfl, sameName⟩ := qualified_inj (free.mono (by simp)) (free'.mono (by simp)) same
    rw [linked.field_eq isField isField' (linked.typeName?_injective isName isName') sameName]

private theorem owned?_free (legible : program.Legible) {origin : VariableOrigin}
    (member : origin ∈ program.variableTable.keys) {method : MethodId} {own : String}
    (isOwned : origin.owned? = some (method, own)) : ' ' ∉ own.toList := by
  have blank := fun number => notMem_toDigits number (show ' '.isDigit = false from rfl)
  have telling := legible.locals origin member
  cases origin with
  | «local» _ _ =>
      cases isOwned
      exact telling.1 ' ' (by simp)
  | staticField _ => cases isOwned
  | _ =>
      cases isOwned
      simp [blank]

theorem describeVariable?_free (legible : program.Legible) {id : VariableId} {name : String}
    (found : program.describeVariable? id = some name) :
    ' ' ∉ name.toList ∧ name.toList.head? ≠ some '(' := by
  obtain ⟨origin, isKey, ⟨method, own, owner, isOwned, isOwner, parts⟩ |
    ⟨number, field, className, rfl, isField, isName, rfl⟩⟩ := describeVariable?_cases found
  · have free := legible.describeMethod?_free isOwner ' ' (by simp)
    have free' := legible.owned?_free (Interner.mem_keys_iff.mpr ⟨id, isKey⟩) isOwned
    obtain ⟨_, _, _, isName, rfl⟩ := describeMethod?_cases isOwner
    rw [parts]
    exact ⟨by simp_all, legible.head_qualified isName _ _⟩
  · refine ⟨legible.field_free isField isName ' ' (by simp), ?_⟩
    simpa using legible.head_qualified isName field.name []

end Program.Legible

/-! ## Objects -/

namespace HeapObject

def label (owner typeName : String) (object : HeapObject) : String :=
  let made := match object.site.kind with
    | .new => s!"new {typeName}"
    | .dimension depth => s!"new {typeName} (dim {depth})"
    | .clone => s!"clone {typeName}"
  s!"{owner}#{object.site.site}: {made} in {object.context.render}" ++ object.recency.mark

end HeapObject

def AllocationKind.remark : AllocationKind → String
  | .dimension depth => s!"(dim {depth}) in "
  | _ => "in "

private theorem HeapObject.toList_label (owner typeName : String) (object : HeapObject) :
    (object.label owner typeName).toList = owner.toList ++ '#' ::
      (Nat.toDigits 10 object.site.site ++ ':' :: ' ' :: (object.site.kind.word.toList ++
        (typeName.toList ++ ' ' :: (object.site.kind.remark.toList ++
          (object.context.render.toList ++ object.recency.mark.toList))))) := by
  unfold label
  cases object.site.kind <;> simp [AllocationKind.word, AllocationKind.remark]

private theorem AllocationKind.split_remark {kind other : AllocationKind}
    (sameWord : kind.word = other.word)
    {rest rest' : List Char} (same : kind.remark.toList ++ rest = other.remark.toList ++ rest') :
    kind = other ∧ rest = rest' := by
  cases kind with
  | dimension depth =>
      cases other with
      | dimension depth' =>
          have numbers : Nat.toDigits 10 depth ++ ')' :: (" in ".toList ++ rest) =
              Nat.toDigits 10 depth' ++ ')' :: (" in ".toList ++ rest') := by
            simpa [remark] using same
          obtain ⟨rfl, rests⟩ :=
            Text.split_number (Text.endsNumber_cons rfl _) (Text.endsNumber_cons rfl _) numbers
          exact ⟨rfl, by simpa using rests⟩
      | _ => simp [remark] at same
  | new => cases other <;> simp_all [remark, word]
  | clone => cases other <;> simp_all [remark, word]

private theorem Recency.mark_injective {recency other : Recency}
    (same : recency.mark.toList = other.mark.toList) : recency = other := by
  cases recency <;> cases other <;> simp_all [mark]

/-- Equal descriptions are those of one object of one method and one type. -/
theorem HeapObject.label_inj {owner owner' typeName typeName' : String} {object other : HeapObject}
    (free : '#' ∉ owner.toList) (free' : '#' ∉ owner'.toList) (blank : ' ' ∉ typeName.toList)
    (blank' : ' ' ∉ typeName'.toList)
    (same : object.label owner typeName = other.label owner' typeName') :
    owner = owner' ∧ typeName = typeName' ∧ object.site.site = other.site.site ∧
      object.site.kind = other.site.kind ∧ object.context = other.context ∧
      object.recency = other.recency := by
  have texts := congrArg String.toList same
  rw [toList_label, toList_label] at texts
  obtain ⟨sameOwner, afterOwner⟩ := Text.split_first free free' texts
  obtain ⟨sameSite, afterSite⟩ := Text.split_number (Text.endsNumber_cons rfl _)
    (Text.endsNumber_cons rfl _) afterOwner
  obtain ⟨sameWord, afterWord⟩ :=
    AllocationKind.split_word (List.cons.inj (List.cons.inj afterSite).2).2
  obtain ⟨sameType, afterType⟩ := Text.split_first blank blank' afterWord
  obtain ⟨sameKind, afterRemark⟩ := AllocationKind.split_remark sameWord afterType
  obtain ⟨sameContext, sameMark⟩ := Context.split_render afterRemark
  exact ⟨String.toList_inj.mp sameOwner, String.toList_inj.mp sameType, sameSite, sameKind,
    sameContext, Recency.mark_injective sameMark⟩

namespace Program

variable {program : Program}

def objectName? (program : Program) (object : HeapObject) : Option String := do
  let typeName ← program.hierarchy.typeName? object.site.type
  let owner ← program.describeMethod? object.site.method
  pure (object.label owner typeName)

theorem Legible.objectName?_injective (legible : program.Legible)
    (linked : program.hierarchy.Linked) {object other : HeapObject} {name : String}
    (found : program.objectName? object = some name)
    (found' : program.objectName? other = some name) : object = other := by
  obtain ⟨typeName, isType, found⟩ := Option.bind_eq_some_iff.mp found
  obtain ⟨owner, isOwner, isLabel⟩ := Option.bind_eq_some_iff.mp found
  obtain ⟨typeName', isType', found'⟩ := Option.bind_eq_some_iff.mp found'
  obtain ⟨owner', isOwner', isLabel'⟩ := Option.bind_eq_some_iff.mp found'
  have same := Option.some.inj (isLabel'.trans isLabel.symm)
  obtain ⟨rfl, rfl, sameSite, sameKind, sameContext, sameRecency⟩ := HeapObject.label_inj
    (legible.describeMethod?_free isOwner' '#' (by simp))
    (legible.describeMethod?_free isOwner '#' (by simp))
    (legible.typeName?_free isType' ' ' (by simp))
    (legible.typeName?_free isType ' ' (by simp)) same
  have sameMethod := legible.describeMethod?_injective linked isOwner isOwner'
  have sameType := linked.typeName?_injective isType isType'
  obtain ⟨⟨_, _, _, _⟩, _, _⟩ := object
  obtain ⟨⟨_, _, _, _⟩, _, _⟩ := other
  simp_all

/-! ## Nodes -/

def slotName? (program : Program) : FieldKey → Option String
  | .named field => (program.hierarchy.field? field).map Field.name
  | .arrayContents => some "[]"

def placeName? (program : Program) : Place → Option String
  | .local replica => do
      let name ← program.describeVariable? replica.variableId
      pure s!"{name} {replica.context.render}"
  | .localAt replica point => do
      let name ← program.describeVariable? replica.variableId
      pure s!"{name} {replica.context.render} at {renderPoint point}"
  | .field object key _ => do
      let owner ← program.objectName? object
      let slot ← program.slotName? key
      pure s!"({owner}).{slot}"

end Program

end ObjectFlow
