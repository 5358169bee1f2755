import ObjectFlow.Markup.Reference
import ObjectFlow.Markup.Token

/-!
# Attributes

An attribute is a qualified name, an equals sign and a quoted value, with
spaces around the sign allowed.  A value may hold references; the text of an
entity is taken as it is.  Tokens other than those that open a start tag or a
processing instruction may stand in a value and count as their text.
-/

namespace ObjectFlow.Markup

inductive AttributePhase where
  | name (chars : List Char)
  | named (name : QualifiedName)
  | assigned (name : QualifiedName)
  | value (name : QualifiedName) (quote : Quote) (chars : List Char)
  | reference (name : QualifiedName) (quote : Quote) (chars : List Char) (entity : List Char)

inductive AttributeStep where
  | more (phase : AttributePhase)
  | complete (name : QualifiedName) (value : String)

namespace AttributePhase

def nameStep? (chars : List Char) : Token → Option AttributeStep
  | .char c =>
      if isSpace c then (QualifiedName.ofReversed? chars).map fun name => .more (.named name)
      else (extendQualifiedName? chars c).map fun chars => .more (.name chars)
  | .equals => (QualifiedName.ofReversed? chars).map fun name => .more (.assigned name)
  | _ => none

def valueStep? (version : Version) (name : QualifiedName) (quote : Quote) (chars : List Char) :
    Token → Option AttributeStep
  | .quote mark =>
      if mark = quote then some (.complete name (String.ofList chars.reverse))
      else some (.more (.value name quote (mark.char :: chars)))
  | .ampersand => some (.more (.reference name quote chars []))
  | .tagOpen | .instructionOpen => none
  | .char c =>
      if version.allowsAsIs c then some (.more (.value name quote (c :: chars))) else none
  | token => some (.more (.value name quote (token.text.reverse ++ chars)))

def referenceStep? (definitions : Definitions) (name : QualifiedName) (quote : Quote)
    (chars entity : List Char) : Token → Option AttributeStep
  | .char c =>
      (extendReference? entity c).map fun entity => .more (.reference name quote chars entity)
  | .semicolon =>
      (definitions.referent? entity.reverse).map fun
        | .char c => .more (.value name quote (c :: chars))
        | .text text => .more (.value name quote (text.reverse ++ chars))
  | _ => none

def step? (definitions : Definitions) : AttributePhase → Token → Option AttributeStep
  | name chars, token => nameStep? chars token
  | named key, .char c => if isSpace c then some (.more (.named key)) else none
  | named key, .equals => some (.more (.assigned key))
  | named _, _ => none
  | assigned key, .char c => if isSpace c then some (.more (.assigned key)) else none
  | assigned key, .quote mark => some (.more (.value key mark []))
  | assigned _, _ => none
  | value key quote chars, token => valueStep? definitions.version key quote chars token
  | reference key quote chars entity, token =>
      referenceStep? definitions key quote chars entity token

end AttributePhase

end ObjectFlow.Markup
