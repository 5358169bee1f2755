import ObjectFlow.Variable

/-!
# Statements

A statement belongs to a site of a method and may have a program point.  Its
action says how references move; the variables in it are fixed when it is
registered.
-/

namespace ObjectFlow

abbrev StatementId := Nat

inductive FieldKey where
  | named (field : FieldId)
  /-- All elements of an array together. -/
  | arrayContents
  deriving DecidableEq, Repr

def FieldKey.render : FieldKey → String
  | .named field => s!".f{field}"
  | .arrayContents => "[]"

inductive CallKind where
  /-- The receiver's type picks the implementation. -/
  | virtual
  /-- The named method itself runs on the receiver. -/
  | special
  | static
  deriving DecidableEq, Repr

inductive StaticAccess where
  | get
  | put
  deriving DecidableEq, Repr

structure Handler where
  type : TypeId
  target : Variable
  deriving DecidableEq, Repr

structure Call where
  kind : CallKind
  callee : MethodId
  receiver : Option Variable
  /-- One for each declared parameter; none where no reference is passed. -/
  args : List (Option Variable)
  result : Option Variable
  /-- Receives what the callee throws. -/
  exception : Variable
  deriving DecidableEq, Repr

inductive Action where
  | new (target : Variable) (type : TypeId)
  /-- Allocates `dims` nested arrays at once; `type` is that of the outermost. -/
  | newArray (target : Variable) (type : TypeId) (dims : Nat)
  | copy (target source : Variable) (cast : Option TypeId)
  | phi (target : Variable) (sources : List Variable)
  | return (source summary : Variable)
  | load (target base : Variable) (field : FieldKey)
  | store (base : Variable) (field : FieldKey) (source : Variable)
  | static (access : StaticAccess) (declared field : Variable) (initializers : List MethodId)
  | call (invoked : Call)
  | raise (source : Variable) (handlers : List Handler) (summary : Variable)
  | classInit (initializers : List MethodId)
  deriving DecidableEq, Repr

structure Statement where
  method : MethodId
  site : Nat
  point : Option PointId
  action : Action
  deriving DecidableEq, Repr

/-! ## Replacing variables -/

def Variable.replace (given old new : Variable) : Bool × Variable :=
  if given = old then (true, new) else (false, given)

def replaceGiven (old new : Variable) : Option Variable → Bool × Option Variable
  | none => (false, none)
  | some given =>
      let (changed, given) := given.replace old new
      (changed, some given)

/-- Replace in one item after the other.  The answer is yes also if `changed` was so before. -/
def replaceEach {α : Type} (replace : α → Bool × α) (changed : Bool) : List α → Bool × List α
  | [] => (changed, [])
  | item :: items =>
      let (here, item) := replace item
      let (changed, items) := replaceEach replace (here || changed) items
      (changed, item :: items)

/-! ## Operands -/

namespace Action

/-- The variable that an action assigns, if it assigns exactly one. -/
def defined? : Action → Option Variable
  | .new target _ => some target
  | .newArray target _ _ => some target
  | .copy target _ _ => some target
  | .phi target _ => some target
  | .return _ _ => none
  | .load target _ _ => some target
  | .store _ _ _ => none
  | .static .get declared _ _ => some declared
  | .static .put _ field _ => some field
  | .call invoked => invoked.result
  | .raise _ _ _ => none
  | .classInit _ => none

def used : Action → List Variable
  | .new _ _ => []
  | .newArray _ _ _ => []
  | .copy _ source _ => [source]
  | .phi _ sources => sources
  | .return source _ => [source]
  | .load _ base _ => [base]
  | .store base _ source => [base, source]
  | .static .get _ field _ => [field]
  | .static .put declared _ _ => [declared]
  | .call invoked => invoked.receiver.toList ++ invoked.args.filterMap id
  | .raise source _ _ => [source]
  | .classInit _ => []

/-- Put `new` for every use of `old`, and say whether there was one. -/
def replaceUse (old new : Variable) : Action → Bool × Action
  | .new target type => (false, .new target type)
  | .newArray target type dims => (false, .newArray target type dims)
  | .copy target source cast =>
      let (changed, source) := source.replace old new
      (changed, .copy target source cast)
  | .phi target sources =>
      let (changed, sources) := replaceEach (·.replace old new) false sources
      (changed, .phi target sources)
  | .return source summary =>
      let (changed, source) := source.replace old new
      (changed, .return source summary)
  | .load target base field =>
      let (changed, base) := base.replace old new
      (changed, .load target base field)
  | .store base field source =>
      let (changedBase, base) := base.replace old new
      let (changed, source) := source.replace old new
      (changed || changedBase, .store base field source)
  | .static .get declared field initializers =>
      let (changed, field) := field.replace old new
      (changed, .static .get declared field initializers)
  | .static .put declared field initializers =>
      let (changed, declared) := declared.replace old new
      (changed, .static .put declared field initializers)
  | .call invoked =>
      let (changed, receiver) := replaceGiven old new invoked.receiver
      let (changed, args) := replaceEach (replaceGiven old new) changed invoked.args
      (changed, .call { invoked with receiver := receiver, args := args })
  | .raise source handlers summary =>
      let (changed, source) := source.replace old new
      (changed, .raise source handlers summary)
  | .classInit initializers => (false, .classInit initializers)

private def renderCall (invoked : Call) : String :=
  let result := invoked.result.elim "" fun target => s!"v{target.id} = "
  let target := match invoked.kind, invoked.receiver with
    | .static, _ | _, none => s!"static m{invoked.callee}"
    | .special, some receiver => s!"v{receiver.id}.special m{invoked.callee}"
    | .virtual, some receiver => s!"v{receiver.id}.m{invoked.callee}"
  let args := invoked.args.map fun arg => arg.elim "_" fun given => s!"v{given.id}"
  s!"{result}{target}(" ++ ", ".intercalate args ++ ")"

def render : Action → String
  | .new target type => s!"v{target.id} = new t{type}"
  | .newArray target type dims => s!"v{target.id} = newarray t{type} x{dims}"
  | .copy target source none => s!"v{target.id} = v{source.id}"
  | .copy target source (some cast) => s!"v{target.id} = (t{cast}) v{source.id}"
  | .phi target sources =>
      let names := sources.map fun source => s!"v{source.id}"
      s!"v{target.id} = phi(" ++ ", ".intercalate names ++ ")"
  | .return source _ => s!"return v{source.id}"
  | .load target base field => s!"v{target.id} = v{base.id}{field.render}"
  | .store base field source => s!"v{base.id}{field.render} = v{source.id}"
  | .static .get declared field _ => s!"v{declared.id} = static v{field.id}"
  | .static .put declared field _ => s!"static v{field.id} = v{declared.id}"
  | .call invoked => renderCall invoked
  | .raise source handlers _ =>
      s!"raise v{source.id}" ++
        String.join (handlers.map fun handler => s!" catch(t{handler.type} v{handler.target.id})")
  | .classInit initializers =>
      "clinit" ++ String.join (initializers.map fun method => s!" m{method}")

end Action

namespace Statement

/-- The flow-sensitive variable that a statement overwrites at its point. -/
def kill? (statement : Statement) : Option (PointId × VariableId) := do
  let target ← statement.action.defined?
  let point ← statement.point
  if target.flowSensitive then pure (point, target.id) else none

def replaceUse (statement : Statement) (old new : Variable) : Bool × Statement :=
  let (changed, action) := statement.action.replaceUse old new
  (changed, { statement with action := action })

end Statement

end ObjectFlow
