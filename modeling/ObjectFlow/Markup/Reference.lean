import ObjectFlow.Markup.Name
import ObjectFlow.Text.Numeral

/-!
# References

A reference stands for a character or for the text of an entity.  Five
entities are predefined, the others are declared in the document type; of two
declarations of one name the first counts.
-/

namespace ObjectFlow.Markup

structure Definitions where
  version : Version
  entities : List (String × List Char)

namespace Definitions

def initial : Definitions := ⟨.v10, []⟩

def entity? (definitions : Definitions) (name : String) : Option (List Char) :=
  definitions.entities.lookup name

/-- Declare an entity.  It stays hidden if the name is declared already. -/
def declare (definitions : Definitions) (name : String) (text : List Char) : Definitions :=
  { definitions with entities := definitions.entities ++ [(name, text)] }

def char? (definitions : Definitions) (code : Nat) : Option Char :=
  if code.isValidChar ∧ definitions.version.allows (Char.ofNat code) then some (Char.ofNat code)
  else none

def numbered? (definitions : Definitions) (number : List Char) : Option Char :=
  match number with
  | 'x' :: digits => (Text.hexadecimal? digits).bind definitions.char?
  | digits => (Text.decimal? digits).bind definitions.char?

end Definitions

inductive Referent where
  | char (c : Char)
  | text (text : List Char)

def predefined? : List Char → Option Char
  | ['l', 't'] => some '<'
  | ['g', 't'] => some '>'
  | ['a', 'm', 'p'] => some '&'
  | ['q', 'u', 'o', 't'] => some '\x22'
  | ['a', 'p', 'o', 's'] => some '\x27'
  | _ => none

def Definitions.referent? (definitions : Definitions) (name : List Char) : Option Referent :=
  match predefined? name with
  | some c => some (.char c)
  | none =>
      match name with
      | '#' :: number => (definitions.numbered? number).map .char
      | name => (definitions.entity? (String.ofList name)).map .text

def extendReference? (name : List Char) (c : Char) : Option (List Char) :=
  if name.isEmpty ∧ c = '#' then some ['#'] else extendName? name c

end ObjectFlow.Markup
