import ObjectFlow.Hierarchy.Basic
import ObjectFlow.Text.Blank

/-!
# Building hierarchies

Each operation adds one thing to a table of types or fails and leaves the
table as it was.  Array types come into being when their name is resolved.
-/

namespace ObjectFlow.TypeTable

abbrev Build (α : Type) := ExceptT Failure (StateM TypeTable) α

def pushType (info : TypeInfo) : Build TypeId := do
  let table ← get
  set { table with types := table.types ++ [info] }
  pure table.types.length

def requireClass (type : TypeId) : Build ClassInfo := do
  let info ← inRange (← get).types[type]?
  match info.kind with
  | .declared classInfo => pure classInfo
  | _ => fail (.unknownType info.name)

def setClass (type : TypeId) (change : ClassInfo → ClassInfo) : Build Unit :=
  modify fun table =>
    { table with
      types := table.types.modify type fun info =>
        match info.kind with
        | .declared classInfo => { info with kind := .declared (change classInfo) }
        | _ => info }

def declareClass (name : String) (isInterface : Bool) : Build TypeId := do
  if ((← get).find? name).isSome then
    fail (.duplicateClass name)
  else if (Text.stripBrackets? name).isSome || name.isEmpty then
    fail (.malformedType name)
  else
    pushType ⟨name, .declared { ClassInfo.empty with isInterface := isInterface }⟩

/-- The superclass is a class and not an interface. -/
def setSuperclass (type superclass : TypeId) : Build Unit := do
  let info ← inRange (← get).types[superclass]?
  match info.kind with
  | .declared ⟨_, _, false, _, _, _⟩ =>
      let _ ← requireClass type
      setClass type fun classInfo => { classInfo with superclass := some superclass }
  | _ => fail (.invalidSuperclass info.name)

def addInterface (type interface : TypeId) : Build Unit := do
  let info ← inRange (← get).types[interface]?
  match info.kind with
  | .declared _ =>
      let _ ← requireClass type
      setClass type fun classInfo =>
        { classInfo with interfaces := classInfo.interfaces ++ [interface] }
  | _ => fail (.invalidSuperclass info.name)

def addField (declaring : TypeId) (name : String) (type : TypeId) (isStatic : Bool) :
    Build FieldId := do
  let classInfo ← requireClass declaring
  let table ← get
  if classInfo.fields.any fun field => (table.fields[field]?).any (·.name = name) then
    fail (.duplicateField (← inRange (table.typeName? declaring)) name)
  else
    let id := table.fields.length
    setClass declaring fun classInfo => { classInfo with fields := classInfo.fields ++ [id] }
    modify fun table =>
      { table with fields := table.fields ++ [⟨declaring, name, type, isStatic⟩] }
    pure id

/-- Method names are unique within a class.  A class initializer is static. -/
def addMethod (method : Method) : Build MethodId := do
  let classInfo ← requireClass method.declaring
  let table ← get
  if classInfo.methods.any fun id => (table.methods[id]?).any (·.name = method.name) then
    let className ← inRange (table.typeName? method.declaring)
    fail (.duplicateMethod s!"{className}.{method.name}")
  else
    let id := table.methods.length
    let method :=
      { method with isStatic := method.isStatic || method.name = classInitializerName }
    setClass method.declaring fun classInfo =>
      { classInfo with
        methods := classInfo.methods ++ [id]
        classInitializer :=
          if method.isClassInitializer then some id else classInfo.classInitializer }
    modify fun table => { table with methods := table.methods ++ [method] }
    pure id

def resolveWithin : (depth : Nat) → String → Build TypeId
  | 0, name => fail (.malformedType (Text.trim name))
  | depth + 1, written => do
      let name := Text.trim written
      match (← get).find? name with
      | some id => pure id
      | none =>
          match Text.stripBrackets? name with
          | some inner =>
              if inner.isEmpty then
                fail (.malformedType name)
              else
                let element ← resolveWithin depth inner
                pushType ⟨name, .array element⟩
          | none =>
              if name.toList.any (fun c => c = '[' || c = ']') || name.isEmpty then
                fail (.malformedType name)
              else
                fail (.unknownType name)

/-- The type of a name, blanks around it aside.  Unknown array types are added, from the inside
out. -/
def resolveType (name : String) : Build TypeId :=
  resolveWithin (name.length + 1) name

end ObjectFlow.TypeTable
