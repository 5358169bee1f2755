import ObjectFlow.Declaration.Basic
import ObjectFlow.Hierarchy.Query

/-!
# The hierarchy of a declared program

Names of classes come first, then their supertypes, then their members, so the
order of classes does not matter to what a name means.  The types that method
bodies mention are resolved too, so that the array types among them exist.
-/

namespace ObjectFlow.Declaration

open TypeTable

def resolveDimensions : (dims : Nat) → String → Build Unit
  | 0, name => do
      let _ ← resolveType name
  | dims + 1, name => do
      let _ ← resolveType name
      resolveDimensions dims (name ++ "[]")

def declareSupertypes (declared : Class) (id : TypeId) : Build Unit := do
  declared.superclass.forM fun name => do
    let superclass ← resolveType name
    setSuperclass id superclass
  (Text.splitList declared.interfaces).forM fun name => do
    let interface ← resolveType name
    addInterface id interface

def resolveReturn : Option String → Build (Option TypeId)
  | none => pure none
  | some "void" => pure none
  | some name => do
      let type ← resolveType name
      pure (some type)

def declareMethod (declaring : TypeId) (method : Method) : Build Unit := do
  let params ← method.params.mapM fun param => resolveType param.type
  let returns ← resolveReturn method.returns
  let _ ← addMethod
    ⟨declaring, method.name, params, returns, method.isStatic, method.isNative, method.isAbstract⟩
  method.locals.forM fun declared => do
    let _ ← resolveType declared.type
  method.catches.forM fun declared => do
    let _ ← resolveType declared.type
  method.statements.forM fun (element, operands) =>
    operands.type.forM fun type =>
      resolveDimensions (if element = .newArray then operands.dims.getD 1 else 0) type

def declareMembers (declared : Class) (id : TypeId) : Build Unit := do
  declared.fields.forM fun field => do
    let type ← resolveType field.type
    let _ ← addField id field.name type field.isStatic
  declared.methods.forM (declareMethod id)

/-- Declare the classes, then their supertypes, then their members. -/
def Program.declareTypes (program : Program) : Build Unit := do
  let ids ← program.classes.mapM fun declared => declareClass declared.name declared.isInterface
  (program.classes.zip ids).forM fun (declared, id) => declareSupertypes declared id
  (program.classes.zip ids).forM fun (declared, id) => declareMembers declared id

def Program.hierarchy (program : Program) : Except Failure ObjectFlow.Hierarchy :=
  match program.declareTypes TypeTable.initial with
  | (.ok (), table) => .ok table.build
  | (.error failure, _) => .error failure

end ObjectFlow.Declaration
