import ObjectFlow.Markup.Attribute

/-!
# The declaration of a document

A document may begin with a declaration.  It gives the version, then perhaps
the encoding, then perhaps whether the document stands alone.
-/

namespace ObjectFlow.Markup

inductive Field where
  | version
  | encoding
  | standalone
  deriving DecidableEq, Repr

namespace Field

/-- The first letter of a field's name, which tells the fields apart, and the other letters. -/
def letters : Field → Char × String
  | version => ('v', "ersion")
  | encoding => ('e', "ncoding")
  | standalone => ('s', "tandalone")

def following : Option Field → List Field
  | none => [version]
  | some version => [encoding, standalone]
  | some encoding => [standalone]
  | some standalone => []

end Field

inductive DeclarationPhase where
  | between (last : Option Field)
  | field (key : Field) (phase : AttributePhase)
  | afterValue (last : Field)

inductive DeclarationStep where
  | more (phase : DeclarationPhase)
  | version (version : Version)
  | encoding (name : String)
  | complete

def Version.ofString? : String → Option Version
  | "1.0" => some .v10
  | "1.1" => some .v11
  | _ => none

namespace DeclarationPhase

def assign? (key : Field) (value : String) : Option DeclarationStep :=
  match key with
  | .version => (Version.ofString? value).map .version
  | .encoding => some (.encoding value)
  | .standalone =>
      if value = "yes" ∨ value = "no" then some (.more (.afterValue .standalone)) else none

def step? (definitions : Definitions) : DeclarationPhase → Token → Option DeclarationStep
  | between last, .char c =>
      if isSpace c then some (.more (.between last))
      else
        ((Field.following last).find? fun key => key.letters.1 = c).map fun key =>
          .more (.field key (.name []))
  | between last, .instructionClose => if last.isSome then some .complete else none
  | between _, _ => none
  | field key phase, token => do
      match ← phase.step? definitions token with
      | .more phase => some (.more (.field key phase))
      | .complete name value => if name.localPart = key.letters.2 then assign? key value else none
  | afterValue last, .char c => if isSpace c then some (.more (.between (some last))) else none
  | afterValue _, .instructionClose => some .complete
  | afterValue _, _ => none

end DeclarationPhase

end ObjectFlow.Markup
