import ObjectFlow.Hierarchy.Builder

/-!
# Queries on hierarchies

A finished hierarchy gives every class but `Object` a superclass and knows the
supertypes of each type.  A query about an id outside its table has no answer.

The superclass chain of a class is followed for at most as many steps as there
are types, which is the whole chain unless it goes round in a circle.
-/

namespace ObjectFlow

structure Hierarchy where
  table : TypeTable
  /-- For each type the types it is a subtype of by declaration, itself included. -/
  supertypes : List IdSet

namespace TypeTable

def withDefaultSuperclass (table : TypeTable) : TypeTable :=
  { table with
    types := table.types.zipIdx.map fun (info, id) =>
      match info.kind with
      | .declared classInfo =>
          if id ≠ objectType ∧ classInfo.superclass = none then
            { info with kind := .declared { classInfo with superclass := some objectType } }
          else
            info
      | _ => info }

def parents (table : TypeTable) (type : TypeId) : List TypeId :=
  match table.classInfo? type with
  | some classInfo => classInfo.parents
  | none => []

def parentCount (table : TypeTable) : Nat :=
  (table.types.map fun info => (info.kind.classInfo?.elim 0 fun c => c.parents.length)).foldl
    (· + ·) 0

/-- What a type is a subtype of by declaration.  Classes and arrays are objects. -/
def supertypesOf (table : TypeTable) (type : TypeId) : IdSet :=
  match table.kind? type with
  | some (.declared _) => (reachable table.parentCount table.parents [type]).insert objectType
  | some (.array _) => (OrderedSet.singleton type).insert objectType
  | _ => OrderedSet.singleton type

def build (table : TypeTable) : Hierarchy :=
  let table := table.withDefaultSuperclass
  { table := table
    supertypes := (List.range table.types.length).map table.supertypesOf }

end TypeTable

namespace Hierarchy

def typeInfo? (hierarchy : Hierarchy) (type : TypeId) : Option TypeInfo :=
  hierarchy.table.types[type]?

def kind? (hierarchy : Hierarchy) (type : TypeId) : Option TypeKind :=
  hierarchy.table.kind? type

def typeName? (hierarchy : Hierarchy) (type : TypeId) : Option String :=
  hierarchy.table.typeName? type

def method? (hierarchy : Hierarchy) (method : MethodId) : Option Method :=
  hierarchy.table.methods[method]?

def field? (hierarchy : Hierarchy) (field : FieldId) : Option Field :=
  hierarchy.table.fields[field]?

def typeNames (hierarchy : Hierarchy) : List String := hierarchy.table.types.map TypeInfo.name

def typeIds (hierarchy : Hierarchy) : List TypeId := List.range hierarchy.table.types.length

def methodIds (hierarchy : Hierarchy) : List MethodId := List.range hierarchy.table.methods.length

def isReference? (hierarchy : Hierarchy) (type : TypeId) : Option Bool :=
  (hierarchy.kind? type).map TypeKind.isReference

def isArray? (hierarchy : Hierarchy) (type : TypeId) : Option Bool :=
  (hierarchy.kind? type).map TypeKind.isArray

def elementType? (hierarchy : Hierarchy) (type : TypeId) : Option (Option TypeId) :=
  (hierarchy.kind? type).map TypeKind.element?

def lookupType (hierarchy : Hierarchy) (name : String) : Option TypeId :=
  hierarchy.table.find? (Text.trim name)

def declaredMethod? (hierarchy : Hierarchy) (classInfo : ClassInfo) (name : String) :
    Option MethodId :=
  classInfo.methods.find? fun id => (hierarchy.method? id).any (·.name = name)

/-- The method of a qualified name `Class.method`, split at its last dot. -/
def lookupMethod (hierarchy : Hierarchy) (qualified : String) : Except Error MethodId :=
  let found := do
    let (className, name) ← Text.splitAtLast? '.' qualified
    let type ← hierarchy.lookupType className
    let classInfo ← hierarchy.table.classInfo? type
    hierarchy.declaredMethod? classInfo name
  match found with
  | some id => .ok id
  | none => .error (.unknownMethod qualified)

def describeMethod? (hierarchy : Hierarchy) (method : MethodId) : Option String := do
  let method ← hierarchy.method? method
  let className ← hierarchy.typeName? method.declaring
  pure s!"{className}.{method.name}"

/-! ## Superclass chains -/

/-- A class followed by its superclasses, for at most `steps` classes. -/
def lineageWithin (hierarchy : Hierarchy) : (steps : Nat) → TypeId → List ClassInfo
  | 0, _ => []
  | steps + 1, type =>
      match hierarchy.table.classInfo? type with
      | none => []
      | some classInfo =>
          classInfo :: match classInfo.superclass with
            | none => []
            | some superclass => lineageWithin hierarchy steps superclass

def lineage (hierarchy : Hierarchy) (type : TypeId) : List ClassInfo :=
  lineageWithin hierarchy hierarchy.table.types.length type

def lookupField (hierarchy : Hierarchy) (type : TypeId) (name : String) :
    Except Failure FieldId := do
  let typeName ← inRange (hierarchy.typeName? type)
  let found := (hierarchy.lineage type).findSome? fun classInfo =>
    classInfo.fields.find? fun id => (hierarchy.field? id).any (·.name = name)
  match found with
  | some id => pure id
  | none => fail (.unknownField typeName name)

/-- The implementation that a call with the selector runs on an object of the type: the nearest
one in the superclass chain.  Arrays inherit from `Object`. -/
def resolveMethod? (hierarchy : Hierarchy) (receiver : TypeId) (selector : Selector) :
    Option (Option MethodId) := do
  let start ← match ← hierarchy.kind? receiver with
    | .array _ => pure (some TypeTable.objectType)
    | .declared _ => pure (some receiver)
    | .primitive _ => pure none
  pure do
    (hierarchy.lineage (← start)).findSome? fun classInfo =>
      classInfo.methods.find? fun id => (hierarchy.method? id).any (·.implements selector)

/-- The instance fields of a class, its own before the inherited ones. -/
def instanceFields? (hierarchy : Hierarchy) (type : TypeId) : Option (List FieldId) := do
  let _ ← hierarchy.kind? type
  pure <| (hierarchy.lineage type).flatMap fun classInfo =>
    classInfo.fields.filter fun id => (hierarchy.field? id).any (!·.isStatic)

def classInitializer? (hierarchy : Hierarchy) (type : TypeId) : Option (Option MethodId) :=
  (hierarchy.kind? type).map fun kind => kind.classInfo?.bind ClassInfo.classInitializer

/-- The initializers that run when a class is first used, the outermost superclass first. -/
def classInitializersFor? (hierarchy : Hierarchy) (type : TypeId) : Option (List MethodId) := do
  let _ ← hierarchy.kind? type
  pure ((hierarchy.lineage type).filterMap ClassInfo.classInitializer).reverse

/-! ## Subtyping -/

def subtypeWithin (hierarchy : Hierarchy) : (depth : Nat) → TypeId → TypeId → Option Bool
  | 0, _, _ => some false
  | depth + 1, sub, sup =>
      if sub = sup then
        some true
      else do
        let subKind ← hierarchy.kind? sub
        let supKind ← hierarchy.kind? sup
        match subKind, supKind with
        | .primitive _, _ | _, .primitive _ => pure false
        | .array subElement, .array supElement =>
            if (← hierarchy.isReference? subElement) && (← hierarchy.isReference? supElement) then
              subtypeWithin hierarchy depth subElement supElement
            else
              pure false
        | _, _ => pure ((hierarchy.supertypes[sub]?).any (·.contains sup))

/-- Whether objects of the first type are objects of the second.  Arrays of references are
related as their elements are. -/
def isSubtype? (hierarchy : Hierarchy) (sub sup : TypeId) : Option Bool :=
  subtypeWithin hierarchy (hierarchy.table.types.length + 1) sub sup

end Hierarchy

end ObjectFlow
