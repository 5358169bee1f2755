import ObjectFlow.Declaration.Basic
import ObjectFlow.Error
import ObjectFlow.Markup.Reader
import ObjectFlow.Text.Numeral

/-!
# Reading declarations from markup

The root element is the program and each of its children a class, whatever
their names are; the name of a member or a method item says what it is.
Programs, classes and methods take their properties from attributes.  The
other elements take them from attributes or from child elements holding the
value as text.  A property given twice is a fault, an unknown one is ignored.
-/

namespace ObjectFlow.Declaration

open Markup

inductive Property where
  | attribute (value : String)
  | child (content : List Node)

namespace Property

/-- The text of a property: an attribute's value, or the only text in a child element. -/
def text? : Property → Option String
  | .attribute value => some value
  | .child [] => some ""
  | .child [.text content] => some content
  | .child _ => none

def truth? : String → Option Bool
  | "true" | "1" => some true
  | "false" | "0" => some false
  | _ => none

/-- A flag is `true`, `1`, `false` or `0`; an empty child element is false. -/
def flag? : Property → Option Bool
  | .child [] => some false
  | property => property.text?.bind truth?

def smallNumber? (text : String) : Option Nat :=
  (Text.decimal? text.toList).filter (· ≤ 255)

def count? (property : Property) : Option Nat :=
  property.text?.bind smallNumber?

end Property

abbrev Properties := List (String × Property)

def attributeProperties (attributes : List (String × String)) : Properties :=
  attributes.map fun (name, value) => (name, .attribute value)

/-- Properties from attributes and child elements; text between them does not count. -/
def leafProperties (attributes : List (String × String)) (children : List Node) : Properties :=
  attributeProperties attributes ++ children.filterMap fun
    | .element name _ content => some (name, .child content)
    | .text _ => none

namespace Properties

def find (properties : Properties) (name : String) : Option (Option Property) :=
  match properties.filter fun entry => entry.1 = name with
  | [] => some none
  | [(_, property)] => some (some property)
  | _ => none

def optional {α : Type} (properties : Properties) (name : String) (value? : Property → Option α) :
    Option (Option α) := do
  match ← properties.find name with
  | none => pure none
  | some property => (value? property).map some

def required (properties : Properties) (name : String) : Option String := do
  match ← properties.optional name Property.text? with
  | some value => pure value
  | none => none

def string (properties : Properties) (name : String) : Option (Option String) :=
  properties.optional name Property.text?

def flag (properties : Properties) (name : String) : Option Bool := do
  pure ((← properties.optional name Property.flag?).getD false)

def field? (properties : Properties) : Option Field := do
  pure {
    name := ← properties.required "name"
    type := ← properties.required "type"
    isStatic := ← properties.flag "static" }

def parameter? (properties : Properties) : Option Parameter := do
  pure { name := ← properties.required "name", type := ← properties.required "type" }

def local? (properties : Properties) : Option Local := do
  pure {
    name := ← properties.required "name"
    type := ← properties.required "type"
    flowSensitive := ← properties.flag "flow_sensitive" }

def catch? (properties : Properties) : Option Catch := do
  pure { type := ← properties.required "type", target := ← properties.required "var" }

def operands? (properties : Properties) : Option Operands := do
  pure {
    target := ← properties.string "target"
    source := ← properties.string "source"
    sources := ← properties.string "sources"
    base := ← properties.string "base"
    field := ← properties.string "field"
    className := ← properties.string "class"
    type := ← properties.string "type"
    dims := ← properties.optional "dims" Property.count?
    method := ← properties.string "method"
    receiver := ← properties.string "receiver"
    args := ← properties.string "args"
    kind := ← properties.string "kind"
    label := ← properties.string "label"
    jump := ← properties.string "jump"
    branch := ← properties.string "branch" }

end Properties

def item? : Node → Option Item
  | .text _ => none
  | .element name attributes children =>
      let properties := leafProperties attributes children
      match name with
      | "param" => properties.parameter?.map .param
      | "local" => properties.local?.map .local
      | "catch" => properties.catch?.map .catch
      | _ => do
          let element ← Element.ofTag? name
          let operands ← properties.operands?
          pure (.statement element operands)

def method? (attributes : List (String × String)) (children : List Node) : Option Method := do
  let properties := attributeProperties attributes
  pure {
    name := ← properties.required "name"
    returns := ← properties.string "returns"
    isStatic := ← properties.flag "static"
    isNative := ← properties.flag "native"
    isAbstract := ← properties.flag "abstract"
    items := ← children.mapM item? }

def member? : Node → Option Member
  | .text _ => none
  | .element name attributes children =>
      match name with
      | "field" => (leafProperties attributes children).field?.map .field
      | "method" => (method? attributes children).map .method
      | _ => none

def class? : Node → Option Class
  | .text _ => none
  | .element _ attributes children => do
      let properties := attributeProperties attributes
      pure {
        name := ← properties.required "name"
        superclass := ← properties.string "extends"
        interfaces := ← properties.string "implements"
        isInterface := ← properties.flag "interface"
        members := ← children.mapM member? }

def Program.ofNode? : Node → Option Program
  | .text _ => none
  | .element _ attributes children => do
      pure {
        entry := ← (attributeProperties attributes).required "entry"
        classes := ← children.mapM class? }

def Program.ofBytes (description : List UInt8) : Except Error Program :=
  match (readDocument? description).bind Program.ofNode? with
  | some program => .ok program
  | none => .error .unparsable

def Program.parse (description : String) : Except Error Program :=
  Program.ofBytes (description.toList.flatMap String.utf8EncodeChar)

end ObjectFlow.Declaration
