/-!
# Causes of failure

An `Error` is what is wrong with a program, with its hierarchy or with the
policy it is analysed under.  A `Failure` is an error or an id outside its
table.  The wording of every error is in `Error.message`.
-/

namespace ObjectFlow

inductive Error where
  | unknownType (name : String)
  | unknownMethod (name : String)
  | unknownField (className field : String)
  | duplicateClass (name : String)
  | duplicateMethod (name : String)
  | duplicateField (className field : String)
  | malformedType (name : String)
  | invalidSuperclass (name : String)
  | missingAttribute (element property : String)
  | unreadable
  | unparsable
  | duplicateStatement (method : String) (site : Nat) (statement : String)
  | unresolvedTarget (selector receiver statement context : String)
  | impurePolicy (policy detail statement context : String)
  | unknownVariable (method name : String)
  | unknownLabel (method label : String)
  /-- A flow-sensitive variable was written or read outside of any program point. -/
  | missingProgramPoint (variableName statement context : String)
  | unknownPolicy (name : String)
  | missingEntryPoint (name : String)
  deriving DecidableEq, Repr

def Error.message : Error → String
  | .unknownType name => s!"unknown type `{name}`"
  | .unknownMethod name => s!"unknown method `{name}`"
  | .unknownField className field => s!"unknown field `{field}` in `{className}`"
  | .duplicateClass name => s!"class `{name}` declared twice"
  | .duplicateMethod name => s!"method `{name}` declared twice"
  | .duplicateField className field => s!"field `{className}.{field}` declared twice"
  | .malformedType name => s!"malformed type name `{name}`"
  | .invalidSuperclass name => s!"`{name}` cannot be used as a superclass"
  | .missingAttribute element property =>
      s!"<{element}> is missing required attribute `{property}`"
  | .unreadable => "unable to read program description"
  | .unparsable => "failed to parse program description"
  | .duplicateStatement method site statement =>
      s!"statement `{statement}` registered twice for site {site} of `{method}`"
  | .unresolvedTarget selector receiver statement context =>
      s!"no implementation of `{selector}` for receiver type `{receiver}` at `{statement}` " ++
        s!"in context {context}"
  | .impurePolicy policy detail statement context =>
      s!"heap abstraction `{policy}` is not a pure function: {detail} at `{statement}` " ++
        s!"in context {context}"
  | .unknownVariable method name => s!"unknown variable `{name}` in `{method}`"
  | .unknownLabel method label => s!"unknown label `{label}` in `{method}`"
  | .missingProgramPoint variableName statement context =>
      s!"flow-sensitive variable `{variableName}` accessed outside of any program point by " ++
        s!"`{statement}` in context {context}"
  | .unknownPolicy name => s!"no heap abstraction policy named `{name}` is registered"
  | .missingEntryPoint name => s!"the program has no analyzable entry point `{name}`"

def Error.kind : Error → String
  | .unknownType _ => "UnknownType"
  | .unknownMethod _ => "UnknownMethod"
  | .unknownField _ _ => "UnknownField"
  | .duplicateClass _ => "DuplicateClass"
  | .duplicateMethod _ => "DuplicateMethod"
  | .duplicateField _ _ => "DuplicateField"
  | .malformedType _ => "MalformedType"
  | .invalidSuperclass _ => "InvalidSuperclass"
  | .missingAttribute _ _ => "MissingAttribute"
  | .unreadable => "ProgramRead"
  | .unparsable => "ProgramParse"
  | .duplicateStatement _ _ _ => "DuplicateStatement"
  | .unresolvedTarget _ _ _ _ => "UnresolvedTarget"
  | .impurePolicy _ _ _ _ => "ImpurePolicy"
  | .unknownVariable _ _ => "UnknownVariable"
  | .unknownLabel _ _ => "UnknownLabel"
  | .missingProgramPoint _ _ _ => "MissingProgramPoint"
  | .unknownPolicy _ => "UnknownPolicy"
  | .missingEntryPoint _ => "MissingEntryPoint"

inductive Failure where
  | error (cause : Error)
  | outOfRange
  deriving DecidableEq, Repr

def inRange {m : Type → Type} [Monad m] [MonadExceptOf Failure m] {α : Type} :
    Option α → m α
  | some value => pure value
  | none => throw .outOfRange

def fail {m : Type → Type} [MonadExceptOf Failure m] {α : Type} (cause : Error) : m α :=
  throw (.error cause)

end ObjectFlow
