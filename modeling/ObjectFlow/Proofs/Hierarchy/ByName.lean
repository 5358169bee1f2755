import Mathlib.Logic.Relation
import ObjectFlow.Proofs.Decision
import ObjectFlow.Proofs.Text.TypeName

/-!
# Types by name

Ids are handed out in the order in which types, methods and fields come up, so
that two tables are compared by what they say in names.  A `Sketch` is what a
table has to say while a program is being declared: the classes so far, what is
known of each, and the texts that have been resolved, with the array types that
they mention.
-/

namespace ObjectFlow

open Effect

/-! ## Descriptions -/

structure FieldDescription where
  name : String
  type : String
  isStatic : Bool
  deriving DecidableEq, Repr

structure MethodDescription where
  name : String
  params : List String
  returns : Option String
  isStatic : Bool
  isNative : Bool
  isAbstract : Bool
  deriving DecidableEq, Repr

structure ClassDescription where
  superclass : Option String
  interfaces : List String
  isInterface : Bool
  fields : List FieldDescription
  methods : List MethodDescription
  classInitializer : Option String
  deriving DecidableEq, Repr

inductive TypeDescription where
  | primitive (type : Primitive)
  | declared (info : ClassDescription)
  | array (element : String)
  deriving DecidableEq, Repr

def TypeDescription.class? : TypeDescription → Option ClassDescription
  | .declared info => some info
  | _ => none

namespace TypeTable

def describedField? (table : TypeTable) (id : FieldId) : Option FieldDescription := do
  let field ← table.fields[id]?
  let type ← table.typeName? field.type
  pure ⟨field.name, type, field.isStatic⟩

def describedMethod? (table : TypeTable) (id : MethodId) : Option MethodDescription := do
  let method ← table.methods[id]?
  let params ← method.params.mapM table.typeName?
  let returns ← method.returns.mapM table.typeName?
  pure ⟨method.name, params, returns, method.isStatic, method.isNative, method.isAbstract⟩

def methodName? (table : TypeTable) (id : MethodId) : Option String :=
  (table.methods[id]?).map Method.name

def describedClass? (table : TypeTable) (info : ClassInfo) : Option ClassDescription := do
  let superclass ← info.superclass.mapM table.typeName?
  let interfaces ← info.interfaces.mapM table.typeName?
  let fields ← info.fields.mapM table.describedField?
  let methods ← info.methods.mapM table.describedMethod?
  let initializer ← info.classInitializer.mapM table.methodName?
  pure ⟨superclass, interfaces, info.isInterface, fields, methods, initializer⟩

def describedKind? (table : TypeTable) : TypeKind → Option TypeDescription
  | .primitive type => some (.primitive type)
  | .declared info => (table.describedClass? info).map .declared
  | .array element => (table.typeName? element).map .array

/-- What a table says about the type of a name. -/
def described? (table : TypeTable) (name : String) : Option TypeDescription := do
  let id ← table.find? name
  let kind ← table.kind? id
  table.describedKind? kind

def qualified? (table : TypeTable) (method : Method) : Option (String × String) :=
  (table.typeName? method.declaring).map fun className => (className, method.name)

variable {table later : TypeTable}

theorem describedClass?_eq_some {info : ClassInfo} {description : ClassDescription} :
    table.describedClass? info = some description ↔
      info.superclass.mapM table.typeName? = some description.superclass ∧
      info.interfaces.mapM table.typeName? = some description.interfaces ∧
      info.isInterface = description.isInterface ∧
      info.fields.mapM table.describedField? = some description.fields ∧
      info.methods.mapM table.describedMethod? = some description.methods ∧
      info.classInitializer.mapM table.methodName? = some description.classInitializer := by
  unfold describedClass?
  simp only [Option.bind_eq_bind, Option.bind_eq_some_iff, Option.pure_def, Option.some.injEq]
  constructor
  · rintro ⟨_, superclass, _, interfaces, _, fields, _, methods, _, initializer, rfl⟩
    exact ⟨superclass, interfaces, rfl, fields, methods, initializer⟩
  · rintro ⟨superclass, interfaces, isInterface, fields, methods, initializer⟩
    refine ⟨_, superclass, _, interfaces, _, fields, _, methods, _, initializer, ?_⟩
    rw [isInterface]

theorem typeName?_of_getElem? {type : TypeId} {info : TypeInfo}
    (found : table.types[type]? = some info) : table.typeName? type = some info.name := by
  rw [typeName?, found, Option.map_some]

theorem exists_getElem?_of_typeName? {type : TypeId} {name : String}
    (isName : table.typeName? type = some name) :
    ∃ info, table.types[type]? = some info ∧ info.name = name :=
  Option.map_eq_some_iff.mp isName

theorem typeName?_unique (distinct : (table.types.map TypeInfo.name).Nodup) {type other : TypeId}
    {name : String} (isName : table.typeName? type = some name)
    (isName' : table.typeName? other = some name) : type = other := by
  have look : ∀ {id}, table.typeName? id = some name →
      (table.types.map TypeInfo.name)[id]? = some name := by
    intro id here
    rw [List.getElem?_map]
    exact here
  have below := (List.getElem?_eq_some_iff.mp (look isName)).1
  exact (List.getElem?_inj below distinct).mp ((look isName).trans (look isName').symm)

theorem find?_eq_some_iff (distinct : (table.types.map TypeInfo.name).Nodup) {type : TypeId}
    {name : String} : table.find? name = some type ↔ table.typeName? type = some name := by
  have named : ∀ {id}, table.find? name = some id → table.typeName? id = some name := by
    intro id found
    obtain ⟨below, isName, _⟩ := List.findIdx?_eq_some_iff_getElem.mp found
    rw [typeName?, List.getElem?_eq_getElem below]
    simpa using isName
  refine ⟨named, fun isName => ?_⟩
  cases found : table.find? name with
  | some other => rw [typeName?_unique distinct isName (named found)]
  | none =>
      obtain ⟨info, isThere, rfl⟩ := exists_getElem?_of_typeName? isName
      exact absurd (List.mem_map_of_mem (List.mem_of_getElem? isThere)) (find?_eq_none_iff.mp found)

theorem mem_names_iff {name : String} :
    name ∈ table.types.map TypeInfo.name ↔ ∃ type, table.typeName? type = some name := by
  simp [List.mem_iff_getElem?, typeName?]

section Links

variable {link : TypeId → TypeId → Prop} {named : String → String → Prop} {type goal : TypeId}
  {name goalName : String}

theorem exists_path_named
    (forth : ∀ {type other : TypeId} {name : String}, table.typeName? type = some name →
      link type other → ∃ next, table.typeName? other = some next ∧ named name next)
    (isName : table.typeName? type = some name) (path : Relation.ReflTransGen link type goal) :
    ∃ goalName, table.typeName? goal = some goalName ∧
      Relation.ReflTransGen named name goalName := by
  induction path with
  | refl => exact ⟨name, isName, .refl⟩
  | tail _ isLink ih =>
      obtain ⟨_, isBetween, path⟩ := ih
      obtain ⟨next, isNext, isNamed⟩ := forth isBetween isLink
      exact ⟨next, isNext, path.tail isNamed⟩

theorem exists_path_of_named
    (back : ∀ {type : TypeId} {name next : String}, table.typeName? type = some name →
      named name next → ∃ other, link type other ∧ table.typeName? other = some next)
    (isName : table.typeName? type = some name)
    (path : Relation.ReflTransGen named name goalName) :
    ∃ goal, Relation.ReflTransGen link type goal ∧ table.typeName? goal = some goalName := by
  induction path with
  | refl => exact ⟨type, .refl, isName⟩
  | tail _ isNamed ih =>
      obtain ⟨_, path, isBetween⟩ := ih
      obtain ⟨other, isLink, isNext⟩ := back isBetween isNamed
      exact ⟨other, path.tail isLink, isNext⟩

end Links

/-! ## Growing tables -/

structure Stays (table later : TypeTable) : Prop where
  names : ∀ {type : TypeId} {name : String}, table.typeName? type = some name →
    later.typeName? type = some name
  methods : table.methods <+: later.methods
  fields : table.fields <+: later.fields

namespace Stays

theorem refl (table : TypeTable) : table.Stays table :=
  ⟨id, List.prefix_rfl, List.prefix_rfl⟩

theorem trans {last : TypeTable} (first : table.Stays later) (second : later.Stays last) :
    table.Stays last :=
  ⟨fun isName => second.names (first.names isName), first.methods.trans second.methods,
    first.fields.trans second.fields⟩

theorem mapM {α β : Type} {look look' : α → Option β} {items : List α} {values : List β}
    (implies : ∀ item value, look item = some value → look' item = some value)
    (found : items.mapM look = some values) : items.mapM look' = some values := by
  rw [mapM_eq_some_iff] at found ⊢
  exact found.imp fun item value here => implies item value here

theorem option_mapM {α β : Type} {look look' : α → Option β} {item : Option α} {value : Option β}
    (implies : ∀ item value, look item = some value → look' item = some value)
    (found : item.mapM look = some value) : item.mapM look' = some value := by
  cases item with
  | none => exact found
  | some item =>
      obtain ⟨answer, here, rfl⟩ := Option.map_eq_some_iff.mp found
      exact Option.map_eq_some_iff.mpr ⟨answer, implies item answer here, rfl⟩

variable (stays : table.Stays later)

include stays

theorem getElem?_methods {id : MethodId} {method : Method}
    (found : table.methods[id]? = some method) : later.methods[id]? = some method := by
  obtain ⟨more, same⟩ := stays.methods
  rw [← same, List.getElem?_append_left (List.getElem?_eq_some_iff.mp found).1, found]

private theorem getElem?_fields {id : FieldId} {field : Field}
    (found : table.fields[id]? = some field) : later.fields[id]? = some field := by
  obtain ⟨more, same⟩ := stays.fields
  rw [← same, List.getElem?_append_left (List.getElem?_eq_some_iff.mp found).1, found]

private theorem describedField? {id : FieldId} {description : FieldDescription}
    (found : table.describedField? id = some description) :
    later.describedField? id = some description := by
  unfold TypeTable.describedField? at found ⊢
  simp only [Option.bind_eq_bind, Option.bind_eq_some_iff] at found ⊢
  obtain ⟨field, isField, type, isType, same⟩ := found
  exact ⟨field, stays.getElem?_fields isField, type, stays.names isType, same⟩

private theorem describedMethod? {id : MethodId} {description : MethodDescription}
    (found : table.describedMethod? id = some description) :
    later.describedMethod? id = some description := by
  unfold TypeTable.describedMethod? at found ⊢
  simp only [Option.bind_eq_bind, Option.bind_eq_some_iff] at found ⊢
  obtain ⟨method, isMethod, params, areParams, returns, isReturns, same⟩ := found
  exact ⟨method, stays.getElem?_methods isMethod, params,
    mapM (fun _ _ => stays.names) areParams, returns,
    option_mapM (fun _ _ => stays.names) isReturns, same⟩

private theorem methodName? {id : MethodId} {name : String}
    (found : table.methodName? id = some name) : later.methodName? id = some name := by
  obtain ⟨method, isMethod, same⟩ := Option.map_eq_some_iff.mp found
  exact Option.map_eq_some_iff.mpr ⟨method, stays.getElem?_methods isMethod, same⟩

theorem describedClass? {info : ClassInfo} {description : ClassDescription}
    (found : table.describedClass? info = some description) :
    later.describedClass? info = some description := by
  rw [describedClass?_eq_some] at found ⊢
  obtain ⟨superclass, interfaces, isInterface, fields, methods, initializer⟩ := found
  exact ⟨option_mapM (fun _ _ => stays.names) superclass, mapM (fun _ _ => stays.names) interfaces,
    isInterface, mapM (fun _ _ => stays.describedField?) fields,
    mapM (fun _ _ => stays.describedMethod?) methods,
    option_mapM (fun _ _ => stays.methodName?) initializer⟩

theorem describedKind? {kind : TypeKind} {description : TypeDescription}
    (found : table.describedKind? kind = some description) :
    later.describedKind? kind = some description := by
  cases kind with
  | primitive type => exact found
  | declared info =>
      obtain ⟨answer, here, rfl⟩ := Option.map_eq_some_iff.mp found
      exact Option.map_eq_some_iff.mpr ⟨answer, stays.describedClass? here, rfl⟩
  | array element =>
      obtain ⟨answer, here, rfl⟩ := Option.map_eq_some_iff.mp found
      exact Option.map_eq_some_iff.mpr ⟨answer, stays.names here, rfl⟩

theorem qualified? {method : Method} {answer : String × String}
    (found : table.qualified? method = some answer) : later.qualified? method = some answer := by
  obtain ⟨name, isName, same⟩ := Option.map_eq_some_iff.mp found
  exact Option.map_eq_some_iff.mpr ⟨name, stays.names isName, same⟩

end Stays

end TypeTable

/-! ## Sketches -/

/-- What a table says while a program is being declared. -/
structure Sketch where
  classes : List Declaration.Class
  state : String → ClassDescription
  written : List String
  /-- The methods declared so far, after `Object.clone`, with the names of their classes. -/
  methods : List (String × String)

namespace Sketch

def base (sketch : Sketch) : List String :=
  TypeTable.initial.types.map TypeInfo.name ++ sketch.classes.map Declaration.Class.name

inductive Stands (sketch : Sketch) : String → TypeDescription → Prop
  | initial {name : String} {description : TypeDescription}
      (isInitial : TypeTable.initial.described? name = some description) :
      Stands sketch name description
  | declared {name : String} {declared : Declaration.Class} (member : declared ∈ sketch.classes)
      (isName : declared.name = name) : Stands sketch name (.declared (sketch.state name))
  | array {text name inner : String} (isWritten : text ∈ sketch.written)
      (mentions : Text.Mentions sketch.base text name) (isNew : name ∉ sketch.base)
      (isArray : Text.stripBrackets? name = some inner) :
      Stands sketch name (.array (Text.trim inner))

def write (sketch : Sketch) (text : String) : Sketch :=
  { sketch with written := sketch.written ++ [text] }

def change (sketch : Sketch) (name : String) (change : ClassDescription → ClassDescription) :
    Sketch :=
  { sketch with state := Function.update sketch.state name (change (sketch.state name)) }

variable {sketch : Sketch} {name : String} {description other : TypeDescription}

theorem mem_names_of_described? {table : TypeTable}
    (found : table.described? name = some description) :
    name ∈ table.types.map TypeInfo.name := by
  obtain ⟨id, isId, _⟩ := Option.bind_eq_some_iff.mp found
  obtain ⟨below, isName, _⟩ := List.findIdx?_eq_some_iff_getElem.mp isId
  exact List.mem_map.mpr ⟨_, List.getElem_mem below, by simpa using isName⟩

theorem Stands.unique (distinct : sketch.base.Nodup) (stands : sketch.Stands name description)
    (stands' : sketch.Stands name other) : description = other := by
  have initial : ∀ {d}, TypeTable.initial.described? name = some d → name ∈ sketch.base :=
    fun found => List.mem_append_left _ (mem_names_of_described? found)
  have declared : ∀ {c : Declaration.Class}, c ∈ sketch.classes → c.name = name →
      name ∈ sketch.base :=
    fun member isName => List.mem_append_right _ (isName ▸ List.mem_map_of_mem member)
  have apart : ∀ {d} {c : Declaration.Class}, TypeTable.initial.described? name = some d →
      c ∈ sketch.classes → c.name ≠ name := by
    intro d c found member isName
    exact (List.nodup_append.mp distinct).2.2 name (mem_names_of_described? found) name
      (isName ▸ List.mem_map_of_mem member) rfl
  cases stands with
  | initial found =>
      cases stands' with
      | initial found' => exact Option.some.inj (found.symm.trans found')
      | declared member isName => exact absurd isName (apart found member)
      | array _ _ isNew => exact absurd (initial found) isNew
  | declared member isName =>
      cases stands' with
      | initial found => exact absurd isName (apart found member)
      | declared => rfl
      | array _ _ isNew => exact absurd (declared member isName) isNew
  | array _ _ isNew isArray =>
      cases stands' with
      | initial found => exact absurd (initial found) isNew
      | declared member isName => exact absurd (declared member isName) isNew
      | array _ _ _ isArray' =>
          cases isArray.symm.trans isArray'
          rfl

end Sketch

structure TypeTable.Shows (table : TypeTable) (sketch : Sketch) : Prop where
  names : (table.types.map TypeInfo.name).Nodup
  base : sketch.base.Nodup
  stays : initial.Stays table
  described : ∀ {type : TypeId} {info : TypeInfo}, table.types[type]? = some info →
    ∃ description, table.describedKind? info.kind = some description ∧
      sketch.Stands info.name description
  complete : ∀ {name : String} {description : TypeDescription},
    sketch.Stands name description → name ∈ table.types.map TypeInfo.name
  resolved : ∀ text ∈ sketch.written, Text.Resolves sketch.base text
  methods : table.methods.mapM table.qualified? = some (("Object", "clone") :: sketch.methods)

namespace TypeTable

variable {table : TypeTable} {sketch : Sketch}

theorem Shows.described?_eq_some_iff (shows : table.Shows sketch) {name : String}
    {description : TypeDescription} :
    table.described? name = some description ↔ sketch.Stands name description := by
  unfold described?
  simp only [Option.bind_eq_bind, Option.bind_eq_some_iff, find?_eq_some_iff shows.names, kind?,
    Option.map_eq_some_iff]
  constructor
  · rintro ⟨type, isName, kind, ⟨info, isInfo, rfl⟩, isDescription⟩
    obtain ⟨answer, isAnswer, stands⟩ := shows.described isInfo
    cases isAnswer.symm.trans isDescription
    rw [typeName?_of_getElem? isInfo] at isName
    exact Option.some.inj isName ▸ stands
  · intro stands
    obtain ⟨type, isName⟩ := mem_names_iff.mp (shows.complete stands)
    obtain ⟨info, isInfo, rfl⟩ := exists_getElem?_of_typeName? isName
    obtain ⟨answer, isAnswer, stands'⟩ := shows.described isInfo
    refine ⟨type, isName, info.kind, ⟨info, isInfo, rfl⟩, ?_⟩
    rw [isAnswer, stands'.unique shows.base stands]

theorem Shows.stands_of_typeName? (shows : table.Shows sketch) {type : TypeId} {name : String}
    (isName : table.typeName? type = some name) :
    ∃ kind description, table.types[type]? = some ⟨name, kind⟩ ∧
      table.describedKind? kind = some description ∧ sketch.Stands name description := by
  obtain ⟨info, isInfo, rfl⟩ := exists_getElem?_of_typeName? isName
  obtain ⟨description, isDescription, stands⟩ := shows.described isInfo
  exact ⟨info.kind, description, isInfo, isDescription, stands⟩

theorem Shows.exists_kind? (shows : table.Shows sketch) {type : TypeId}
    {name : String} (isName : table.typeName? type = some name) : ∃ kind description,
    table.kind? type = some kind ∧ table.describedKind? kind = some description ∧
      table.described? name = some description := by
  obtain ⟨kind, description, isThere, described, stands⟩ := shows.stands_of_typeName? isName
  refine ⟨kind, description, ?_, described, shows.described?_eq_some_iff.mpr stands⟩
  rw [kind?, isThere, Option.map_some]

theorem initial_shows (state : String → ClassDescription) : initial.Shows ⟨[], state, [], []⟩ := by
  have distinct : (initial.types.map TypeInfo.name).Nodup := by decide
  refine ⟨distinct, by simpa [Sketch.base] using distinct, .refl initial, ?_, ?_, by simp, rfl⟩
  · intro type info found
    have known : ∀ type < initial.types.length, ∀ info ∈ initial.types[type]?,
        initial.described? info.name = initial.describedKind? info.kind ∧
          (initial.describedKind? info.kind).isSome := by decide
    obtain ⟨same, isSome⟩ := known type (List.getElem?_eq_some_iff.mp found).1 info found
    obtain ⟨description, isDescription⟩ := Option.isSome_iff_exists.mp isSome
    exact ⟨description, isDescription, .initial (same.trans isDescription)⟩
  · intro name description stands
    cases stands with
    | initial found => exact Sketch.mem_names_of_described? found
    | declared member => cases member
    | array isWritten => cases isWritten

end TypeTable

end ObjectFlow
