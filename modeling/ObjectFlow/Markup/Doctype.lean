import ObjectFlow.Markup.Reference
import ObjectFlow.Markup.Token

/-!
# Document types

A document type is read for the entities that it declares.  An entity is
declared with its text between quotes, or lies outside the document and then
has an empty text.  A parameter entity serves the document type alone; its
name is kept with a percent sign in front.  Other declarations, quoted texts
and comments are passed over.
-/

namespace ObjectFlow.Markup

structure OpenEntity where
  name : String
  quote : Quote
  chars : List Char

inductive DoctypePhase where
  | outside
  | quoted (quote : Quote)
  | comment
  | keyword (chars : List Char)
  | passing
  | beforeName
  | beforeParameterName
  | name (chars : List Char)
  | beforeText (name : String)
  | text (entity : OpenEntity)
  | ampersand (entity : OpenEntity)
  | number (entity : OpenEntity) (digits : List Char)
  | parameterInText (entity : OpenEntity) (chars : List Char)
  | parameter (chars : List Char)

inductive DoctypeStep where
  | more (phase : DoctypePhase)
  | declare (name : String) (text : List Char)
  /-- A text is to be read before what comes next, outside of declarations. -/
  | expand (text : List Char)
  | complete

namespace DoctypePhase

def outsideStep? : Token → Option DoctypeStep
  | .tagClose => some .complete
  | .declarationOpen => some (.more (.keyword []))
  | .char '%' => some (.more (.parameter ['%']))
  | .commentOpen => some (.more .comment)
  | .quote mark => some (.more (.quoted mark))
  | .dataOpen | .dataClose => none
  | _ => some (.more .outside)

def afterKeyword? (keyword : List Char) : Option DoctypePhase :=
  match String.ofList keyword with
  | "ENTITY" => some .beforeName
  | "NOTATION" | "ELEMENT" | "ATTLIST" => some .passing
  | _ => none

def keywordStep? (chars : List Char) : Token → Option DoctypeStep
  | .char c =>
      if isSpace c then (afterKeyword? chars.reverse).map .more
      else if 'A' ≤ c ∧ c ≤ 'Z' then some (.more (.keyword (c :: chars)))
      else none
  | _ => none

def beforeNameStep? : Token → Option DoctypeStep
  | .char c =>
      if isSpace c then some (.more .beforeName)
      else if c = '%' then some (.more .beforeParameterName)
      else if isNameStart c then some (.more (.name [c]))
      else none
  | _ => none

def beforeParameterNameStep? : Token → Option DoctypeStep
  | .char c =>
      if isSpace c then some (.more .beforeParameterName)
      else if isNameStart c then some (.more (.name [c, '%']))
      else none
  | _ => none

def nameStep? (chars : List Char) : Token → Option DoctypeStep
  | .char c =>
      if isSpace c then some (.more (.beforeText (String.ofList chars.reverse)))
      else if isNameChar c then some (.more (.name (c :: chars)))
      else none
  | _ => none

/-- Read on before the text of an entity.  `SYSTEM` or `PUBLIC` tells that it lies outside. -/
def beforeTextStep? (name : String) : Token → Option DoctypeStep
  | .char c =>
      if isSpace c then some (.more (.beforeText name))
      else if c = 'S' ∨ c = 'P' then some (.declare name [])
      else none
  | .quote mark => some (.more (.text ⟨name, mark, []⟩))
  | _ => none

def textStep? (version : Version) (entity : OpenEntity) : Token → Option DoctypeStep
  | .quote mark =>
      if mark = entity.quote then some (.declare entity.name entity.chars.reverse)
      else some (.more (.text { entity with chars := mark.char :: entity.chars }))
  | .ampersand => some (.more (.ampersand entity))
  | .char c =>
      if c = '&' then some (.more (.ampersand entity))
      else if c = '%' then some (.more (.parameterInText entity ['%']))
      else if version.allows c then some (.more (.text { entity with chars := c :: entity.chars }))
      else none
  | _ => none

/-- Read on after an ampersand: only references by number are resolved here. -/
def ampersandStep? (version : Version) (entity : OpenEntity) : Token → Option DoctypeStep
  | .char c =>
      if c = '#' then some (.more (.number entity []))
      else if version.allows c then
        some (.more (.text { entity with chars := c :: '&' :: entity.chars }))
      else none
  | _ => none

def afterNumber? (definitions : Definitions) (entity : OpenEntity) (digits : List Char) :
    Option DoctypeStep :=
  (definitions.numbered? digits.reverse).map fun c =>
    .more (.text { entity with chars := c :: entity.chars })

def numberStep? (definitions : Definitions) (entity : OpenEntity) (digits : List Char) :
    Token → Option DoctypeStep
  | .semicolon => afterNumber? definitions entity digits
  | .char c =>
      if c = ';' then afterNumber? definitions entity digits
      else if definitions.version.allows c then some (.more (.number entity (c :: digits)))
      else none
  | _ => none

def afterParameter? (definitions : Definitions) (entity : OpenEntity) (chars : List Char) :
    Option DoctypeStep :=
  (definitions.entity? (String.ofList chars.reverse)).map fun text =>
    .more (.text { entity with chars := text.reverse ++ entity.chars })

def parameterInTextStep? (definitions : Definitions) (entity : OpenEntity) (chars : List Char) :
    Token → Option DoctypeStep
  | .semicolon => afterParameter? definitions entity chars
  | .char c =>
      if c = ';' then afterParameter? definitions entity chars
      else if isNameChar c then some (.more (.parameterInText entity (c :: chars)))
      else none
  | _ => none

def parameterStep? (definitions : Definitions) (chars : List Char) : Token → Option DoctypeStep
  | .semicolon => (definitions.entity? (String.ofList chars.reverse)).map .expand
  | .char c =>
      if c = ';' then (definitions.entity? (String.ofList chars.reverse)).map .expand
      else if isNameChar c then some (.more (.parameter (c :: chars)))
      else none
  | _ => none

def step? (definitions : Definitions) : DoctypePhase → Token → Option DoctypeStep
  | outside, token => outsideStep? token
  | quoted quote, token =>
      some (.more (if token = .quote quote then .outside else .quoted quote))
  | comment, token => some (.more (if token = .commentClose then .outside else .comment))
  | keyword chars, token => keywordStep? chars token
  | passing, token => some (.more (if token = .tagClose then .outside else .passing))
  | beforeName, token => beforeNameStep? token
  | beforeParameterName, token => beforeParameterNameStep? token
  | name chars, token => nameStep? chars token
  | beforeText entity, token => beforeTextStep? entity token
  | text entity, token => textStep? definitions.version entity token
  | ampersand entity, token => ampersandStep? definitions.version entity token
  | number entity digits, token => numberStep? definitions entity digits token
  | parameterInText entity chars, token => parameterInTextStep? definitions entity chars token
  | parameter chars, token => parameterStep? definitions chars token

end DoctypePhase

end ObjectFlow.Markup
