import ObjectFlow.ControlFlow
import ObjectFlow.Hierarchy.Query
import ObjectFlow.Interner

/-!
# Variables

Every variable of a program that can hold a reference has one entry in the
variable table, under the declaration it comes from.  The variables that
connect a method to its callers form its summary.
-/

namespace ObjectFlow

inductive VariableOrigin where
  | local (method : MethodId) (name : String)
  | staticField (field : FieldId)
  /-- A formal parameter; number 0 is the receiver of an instance method. -/
  | formal (method : MethodId) (index : Nat)
  | result (method : MethodId)
  | exception (method : MethodId)
  | callException (method : MethodId) (site : Nat)
  deriving DecidableEq, Repr

namespace VariableOrigin

def isLocal : VariableOrigin → Bool
  | .local _ _ => true
  | _ => false

def isSingleton : VariableOrigin → Bool
  | .staticField _ => true
  | _ => false

end VariableOrigin

structure Variable where
  id : VariableId
  type : TypeId
  /-- It exists once, in the initial context. -/
  singleton : Bool
  /-- Its writes and reads are ordered by program points. -/
  flowSensitive : Bool
  deriving DecidableEq, Repr

structure Replica where
  variableId : VariableId
  context : Context
  deriving DecidableEq, Repr

def Replica.render (replica : Replica) : String :=
  s!"v{replica.variableId} in {replica.context.render}"

/-- The replica of a variable in a context; a singleton has its only one in the initial context. -/
def Variable.replica (declared : Variable) (context initial : Context) : Replica :=
  ⟨declared.id, if declared.singleton then initial else context⟩

structure MethodSummary where
  method : MethodId
  /-- The receiver of an instance method, then the parameters; primitive ones have no variable. -/
  formals : List (Option Variable)
  result : Option Variable
  exception : Variable
  deriving DecidableEq, Repr

abbrev VariableTable := Interner VariableOrigin Variable

namespace VariableTable

/-- The variable of an origin, made when it is first asked for.  Only locals are ever
flow-sensitive. -/
def make (table : VariableTable) (origin : VariableOrigin) (type : TypeId)
    (flowSensitive : Bool) : Variable × VariableTable :=
  let fresh : Variable :=
    ⟨table.size, type, origin.isSingleton, origin.isLocal && flowSensitive⟩
  let ((id, _), table) := table.intern origin fresh
  ((table.payload? id).getD fresh, table)

def find? (table : VariableTable) (origin : VariableOrigin) : Option Variable :=
  (table.lookup origin).bind table.payload?

def parameters (table : VariableTable) (hierarchy : Hierarchy) (method : MethodId) :
    (index : Nat) → List TypeId → Option (List (Option Variable) × VariableTable)
  | _, [] => some ([], table)
  | index, type :: types => do
      if ← hierarchy.isReference? type then
        let (formal, table) := table.make (.formal method index) type false
        let (others, table) ← parameters table hierarchy method (index + 1) types
        pure (some formal :: others, table)
      else
        let (others, table) ← parameters table hierarchy method (index + 1) types
        pure (none :: others, table)

def summary? (table : VariableTable) (hierarchy : Hierarchy) (id : MethodId) :
    Option (MethodSummary × VariableTable) := do
  let method ← hierarchy.method? id
  let (receiver, table) :=
    if method.isStatic then ([], table)
    else
      let (receiver, table) := table.make (.formal id 0) method.declaring false
      ([some receiver], table)
  let (params, table) ← table.parameters hierarchy id receiver.length method.params
  let (result, table) ← match method.returns with
    | none => pure (none, table)
    | some type => do
        if ← hierarchy.isReference? type then
          let (result, table) := table.make (.result id) type false
          pure (some result, table)
        else
          pure (none, table)
  let (exception, table) := table.make (.exception id) TypeTable.throwableType false
  pure (⟨id, receiver ++ params, result, exception⟩, table)

def describe? (table : VariableTable) (hierarchy : Hierarchy) (id : VariableId) :
    Option String := do
  match ← table.key? id with
  | .local method name => do
      let owner ← hierarchy.describeMethod? method
      pure s!"{owner}:{name}"
  | .staticField field => do
      let field ← hierarchy.field? field
      let owner ← hierarchy.typeName? field.declaring
      pure s!"{owner}.{field.name}"
  | .formal method index => do
      let owner ← hierarchy.describeMethod? method
      pure s!"{owner}:formal{index}"
  | .result method => do
      let owner ← hierarchy.describeMethod? method
      pure s!"{owner}:return"
  | .exception method => do
      let owner ← hierarchy.describeMethod? method
      pure s!"{owner}:exception"
  | .callException method site => do
      let owner ← hierarchy.describeMethod? method
      pure s!"{owner}:CallException@{site}"

end VariableTable

end ObjectFlow
