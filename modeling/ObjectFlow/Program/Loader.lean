import ObjectFlow.Declaration.Hierarchy
import ObjectFlow.Declaration.Reader
import ObjectFlow.Program.Basic

/-!
# Loading declared programs

Each statement element of a method body becomes a statement, at a site of its
own; a call also takes the next site, for routing what the callee throws.
Every site has a program point, and control goes from one to the next except
where a statement jumps, branches, returns or throws.
-/

namespace ObjectFlow.Declaration

open Registrar

structure Scope where
  method : MethodId
  methodName : String
  summary : MethodSummary
  /-- Variables by name; of two entries the first one counts. -/
  bindings : List (String × Variable)
  handlers : List Handler

def lookupType (name : String) : Register TypeId := do
  match (← get).hierarchy.lookupType name with
  | some type => pure type
  | none => fail (.unknownType name)

namespace Scope

def lookup (scope : Scope) (name : String) : Register Variable :=
  match scope.bindings.lookup name with
  | some found => pure found
  | none => fail (.unknownVariable scope.methodName name)

end Scope

def require (value : Option String) (element : Element) (property : String) : Register String :=
  match value with
  | some value => pure value
  | none => fail (.missingAttribute element.tag property)

def Scope.required (scope : Scope) (value : Option String) (element : Element)
    (property : String) : Register Variable := do
  scope.lookup (← require value element property)

/-! ## Scopes -/

def formalNames (isStatic : Bool) (params : List Parameter) (formals : List (Option Variable)) :
    List (String × Variable) :=
  let names := if isStatic then params.map Parameter.name else "this" :: params.map Parameter.name
  (names.zip formals).filterMap fun (name, formal) => formal.map fun found => (name, found)

/-- The variable of a local; a local of a primitive type has none. -/
def declareLocal (method : MethodId) (declared : Local) :
    Register (Option (String × Variable)) := do
  let type ← lookupType declared.type
  if ← inRange ((← get).hierarchy.isReference? type) then
    let made ← onVariables (·.make (.local method declared.name) type declared.flowSensitive)
    pure (some (declared.name, made))
  else
    pure none

/-- The scope of a method body.  Later declarations hide earlier ones. -/
def openScope (id : MethodId) (body : Method) : Register Scope := do
  let hierarchy := (← get).hierarchy
  let summary ← summary id
  let methodName ← inRange (hierarchy.describeMethod? id)
  let method ← inRange (hierarchy.method? id)
  let formals := formalNames method.isStatic body.params summary.formals
  let locals ← body.locals.mapM (declareLocal id)
  let scope : Scope := ⟨id, methodName, summary, (formals ++ locals.filterMap (·)).reverse, []⟩
  let handlers ← body.catches.mapM fun declared => do
    let type ← lookupType declared.type
    let target ← scope.lookup declared.target
    pure (⟨type, target⟩ : Handler)
  pure { scope with handlers := handlers }

/-! ## Control flow -/

def sitesFrom (next : Nat) : List (Element × Operands) → List Nat
  | [] => []
  | (element, _) :: rest => next :: sitesFrom (next + if element = .call then 2 else 1) rest

/-- The point of the last statement with a label. -/
def labelled? (points : List (PointId × Operands)) (label : String) : Option PointId :=
  (points.reverse.find? fun entry => entry.2.label = some label).map Prod.fst

def labelPoint (scope : Scope) (points : List (PointId × Operands)) (label : String) :
    Register PointId :=
  match labelled? points label with
  | some point => pure point
  | none => fail (.unknownLabel scope.methodName label)

def targets (scope : Scope) (points : List (PointId × Operands)) (exit next : PointId)
    (element : Element) (operands : Operands) : Register (List PointId) := do
  match element, operands.jump, operands.branch with
  | .return, _, _ | .throw, _, _ => pure [exit]
  | _, some label, _ => do pure [← labelPoint scope points label]
  | _, none, some label => do pure [← labelPoint scope points label, next]
  | _, none, none => pure [next]

def controlFlow (scope : Scope) (statements : List (Element × Operands)) (sites : List Nat) :
    Register (List PointId) := do
  let (entry, exit) ← onPoints (·.methodPoints scope.method)
  let points ← sites.mapM fun site => onPoints (·.addPoint scope.method site)
  let labels := points.zip (statements.map Prod.snd)
  let nexts := points.drop 1 ++ [exit]
  let edges ← ((points.zip nexts).zip statements).mapM
    fun ((point, next), (element, operands)) => do
      let goals ← targets scope labels exit next element operands
      pure (goals.map fun goal => (point, goal))
  ((entry, points.head?.getD exit) :: edges.flatten).forM fun (source, target) =>
    addSuccessor source target
  pure points

/-! ## Statements -/

def lookupField (type : TypeId) (name : String) : Register FieldId := do
  match (← get).hierarchy.lookupField type name with
  | .ok field => pure field
  | .error failure => throw failure

/-- The field that an element names, in the class it names or in the type of its base. -/
def fieldOf (element : Element) (operands : Operands) (base : Option Variable) :
    Register FieldId := do
  let name ← require operands.field element "field"
  let type ← match operands.className, base with
    | some className, _ => lookupType className
    | none, some base => pure base.type
    | none, none => fail (.missingAttribute element.tag "class")
  lookupField type name

def lookupMethod (name : String) : Register MethodId := do
  match (← get).hierarchy.lookupMethod name with
  | .ok method => pure method
  | .error cause => fail cause

def initializersOf (type : TypeId) : Register (List MethodId) := do
  inRange ((← get).hierarchy.classInitializersFor? type)

def callKind (kind : Option String) : Register CallKind :=
  match kind with
  | none | some "virtual" | some "interface" => pure .virtual
  | some "special" => pure .special
  | some "static" => pure .static
  | some _ => fail (.missingAttribute Element.call.tag "kind")

/-- The variables passed for the declared parameters, given the listed names.  A primitive
parameter, an absent argument and `_` pass nothing. -/
def arguments (scope : Scope) : List TypeId → List String → Register (List (Option Variable))
  | [], _ => pure []
  | _ :: types, [] => do
      let others ← arguments scope types []
      pure (none :: others)
  | type :: types, name :: names => do
      let passed ←
        if (← inRange ((← get).hierarchy.isReference? type)) && name ≠ "_" then do
          pure (some (← scope.lookup name))
        else
          pure none
      let others ← arguments scope types names
      pure (passed :: others)

def callOf (scope : Scope) (operands : Operands) (site : Nat) : Register Call := do
  let callee ← lookupMethod (← require operands.method .call "method")
  let kind ← callKind operands.kind
  let receiver ← match kind with
    | .static => pure none
    | _ => do pure (some (← scope.required operands.receiver .call "receiver"))
  let declared ← inRange ((← get).hierarchy.method? callee)
  let args ← arguments scope declared.params (Text.splitList operands.args)
  let result ← operands.target.mapM scope.lookup
  let exception ← onVariables
    (·.make (.callException scope.method site) TypeTable.throwableType false)
  pure ⟨kind, callee, receiver, args, result, exception⟩

/-- The action of an element; none for a `return` that passes no reference. -/
def actionOf (scope : Scope) (element : Element) (operands : Operands) (site : Nat) :
    Register (Option Action) := do
  match element with
  | .new => do
      let target ← scope.required operands.target element "target"
      let type ← lookupType (← require operands.type element "type")
      pure (some (.new target type))
  | .newArray => do
      let target ← scope.required operands.target element "target"
      let dims := max (operands.dims.getD 1) 1
      let name ← require operands.type element "type"
      let type ← lookupType (name ++ String.join (List.replicate dims "[]"))
      pure (some (.newArray target type dims))
  | .copy => do
      let cast ← operands.type.mapM lookupType
      let target ← scope.required operands.target element "target"
      let source ← scope.required operands.source element "source"
      pure (some (.copy target source cast))
  | .phi => do
      let sources ← (Text.splitList operands.sources).mapM scope.lookup
      let target ← scope.required operands.target element "target"
      pure (some (.phi target sources))
  | .load => do
      let base ← scope.required operands.base element "base"
      let field ← fieldOf element operands (some base)
      let target ← scope.required operands.target element "target"
      pure (some (.load target base (.named field)))
  | .arrayLoad => do
      let base ← scope.required operands.base element "base"
      let target ← scope.required operands.target element "target"
      pure (some (.load target base .arrayContents))
  | .store => do
      let base ← scope.required operands.base element "base"
      let field ← fieldOf element operands (some base)
      let source ← scope.required operands.source element "source"
      pure (some (.store base (.named field) source))
  | .arrayStore => do
      let base ← scope.required operands.base element "base"
      let source ← scope.required operands.source element "source"
      pure (some (.store base .arrayContents source))
  | .getStatic => do
      let target ← scope.required operands.target element "target"
      let (field, initializers) ← staticField element operands
      pure (some (.static .get target field initializers))
  | .putStatic => do
      let source ← scope.required operands.source element "source"
      let (field, initializers) ← staticField element operands
      pure (some (.static .put source field initializers))
  | .call => do
      let made ← callOf scope operands site
      pure (some (.call made))
  | .return =>
      match operands.source, scope.summary.result with
      | some name, some result => do
          let source ← scope.lookup name
          pure (some (.return source result))
      | _, _ => pure none
  | .throw => do
      let source ← scope.required operands.source element "source"
      pure (some (.raise source scope.handlers scope.summary.exception))
  | .classInit => do
      let type ← lookupType (← require operands.className element "class")
      let initializers ← initializersOf type
      pure (some (.classInit initializers))
where
  staticField (element : Element) (operands : Operands) :
      Register (Variable × List MethodId) := do
    let id ← fieldOf element operands none
    let field ← inRange ((← get).hierarchy.field? id)
    let made ← onVariables (·.make (.staticField id) field.type false)
    let initializers ← initializersOf field.declaring
    pure (made, initializers)

/-- Register the statement of an element.  What a call throws is routed at the next site. -/
def registerElement (scope : Scope) (element : Element) (operands : Operands) (site : Nat)
    (point : PointId) : Register Unit := do
  match ← actionOf scope element operands site with
  | none => pure ()
  | some action =>
      let _ ← register ⟨scope.method, site, some point, action⟩
      match action with
      | .call made =>
          let routing := Action.raise made.exception scope.handlers scope.summary.exception
          let _ ← register ⟨scope.method, site + 1, none, routing⟩
      | _ => pure ()

def loadMethod (className : String) (body : Method) : Register Unit := do
  let id ← lookupMethod s!"{className}.{body.name}"
  let scope ← openScope id body
  let sites := sitesFrom 0 body.statements
  let points ← controlFlow scope body.statements sites
  ((body.statements.zip sites).zip points).forM fun (((element, operands), site), point) =>
    registerElement scope element operands site point

def Program.loadInto (program : Program) : Register ObjectFlow.Program := do
  program.classes.forM fun declared =>
    declared.methods.forM fun body => loadMethod declared.name body
  let hierarchy := (← get).hierarchy
  match hierarchy.lookupMethod program.entry with
  | .error _ => fail (.missingEntryPoint program.entry)
  | .ok entry =>
      setEntry entry
      let method ← inRange (hierarchy.method? entry)
      let initializers ← initializersOf method.declaring
      initializers.forM addInitializer
      finish

def Program.load (program : Program) : Except Failure ObjectFlow.Program := do
  let hierarchy ← program.hierarchy
  (program.loadInto (Registrar.empty hierarchy)).1

def Program.ofFile : Option (List UInt8) → Except Error Program
  | none => .error .unreadable
  | some bytes => Program.ofBytes bytes

end ObjectFlow.Declaration
