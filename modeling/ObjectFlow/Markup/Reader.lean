import ObjectFlow.Markup.Cursor
import ObjectFlow.Markup.Declaration
import ObjectFlow.Markup.Doctype
import ObjectFlow.Markup.Node

/-!
# Reading a document

`readDocument?` reads the root element of a document, token by token.  A
declaration, comments, processing instructions and one document type may
precede it; what follows it is not looked at.  A document that is not well
formed up to the end of its root element has no reading.

A comment does not interrupt a piece of text, a processing instruction does.
A reference to a declared entity in the content of an element is replaced by
the entity's text, which is then read as if it stood there.
-/

namespace ObjectFlow.Markup

inductive Prolog where
  | untouched
  | begun
  | closed
  deriving DecidableEq, Repr

def Prolog.begin : Prolog → Prolog
  | untouched => begun
  | prolog => prolog

inductive Phase where
  | content
  | reference (entity : List Char)
  | comment
  | data
  | target (chars : List Char)
  | instruction
  | declaration (encoding : Option String) (phase : DeclarationPhase)
  | doctype (phase : DoctypePhase)
  | startName (chars : List Char)
  | startTag (tag : StartTag)
  | inAttribute (tag : StartTag) (phase : AttributePhase)
  | afterAttribute (tag : StartTag)
  | endName (chars : List Char)
  | endTag (name : QualifiedName)

structure Reader where
  definitions : Definitions
  prolog : Prolog
  elements : List OpenElement
  phase : Phase

inductive Step where
  | more (reader : Reader)
  | expand (text : List Char) (reader : Reader)
  | recode (encoding : String) (reader : Reader)
  | complete (root : Node)

namespace Reader

def initial : Reader :=
  { definitions := .initial, prolog := .untouched, elements := [], phase := .content }

def enter (reader : Reader) (phase : Phase) : Reader :=
  { reader with phase := phase }

def resume (reader : Reader) : Reader :=
  { reader with prolog := reader.prolog.begin, phase := .content }

def flush (reader : Reader) : Reader :=
  match reader.elements with
  | [] => reader
  | element :: outer => { reader with elements := element.flush :: outer }

def update? (reader : Reader) (f : OpenElement → OpenElement) : Option Reader :=
  match reader.elements with
  | [] => none
  | element :: outer => some { reader with elements := f element :: outer }

def addText? (reader : Reader) (chars : List Char) : Option Reader :=
  reader.update? (·.addText chars)

/-! ## Content -/

def contentChar? (reader : Reader) (c : Char) : Option Reader :=
  if reader.elements.isEmpty then
    if isSpace c then some reader.resume else none
  else if reader.definitions.version.allowsAsIs c then
    reader.update? (·.addChar c)
  else
    none

def contentStep? (reader : Reader) : Token → Option Step
  | .char c => (reader.contentChar? c).map .more
  | .ampersand =>
      if reader.elements.isEmpty then none else some (.more (reader.enter (.reference [])))
  | .commentOpen => some (.more (reader.enter .comment))
  | .dataOpen => if reader.elements.isEmpty then none else some (.more (reader.enter .data))
  | .instructionOpen => some (.more (reader.flush.enter (.target [])))
  | .doctypeOpen =>
      if reader.prolog = .closed then none
      else some (.more { reader with prolog := .closed, phase := .doctype .outside })
  | .tagOpen => some (.more { reader.flush with prolog := .closed, phase := .startName [] })
  | .endTagOpen =>
      if reader.elements.isEmpty then none else some (.more (reader.flush.enter (.endName [])))
  | .dataClose | .declarationOpen => none
  | token => (reader.addText? token.text).map .more

def referenceStep? (reader : Reader) (entity : List Char) : Token → Option Step
  | .char c =>
      (extendReference? entity c).map fun entity => .more (reader.enter (.reference entity))
  | .semicolon => do
      match ← reader.definitions.referent? entity.reverse with
      | .char c => ((reader.enter .content).addText? [c]).map .more
      | .text text => ((reader.enter .content).update? OpenElement.refer).map (.expand text)
  | _ => none

def commentStep? (reader : Reader) : Token → Option Step
  | .commentClose => some (.more reader.resume)
  | .char c => if reader.definitions.version.allows c then some (.more reader) else none
  | _ => some (.more reader)

def dataStep? (reader : Reader) : Token → Option Step
  | .dataClose => some (.more reader.resume)
  | .char c =>
      if reader.definitions.version.allows c then (reader.addText? [c]).map .more else none
  | _ => some (.more reader)

/-! ## Processing instructions, the declaration and the document type -/

def isReserved (target : List Char) : Bool :=
  target.map Char.toLower == ['x', 'm', 'l']

/--
Read on in the target of a processing instruction.  If nothing precedes it, `xml` opens the
declaration of the document instead.
-/
def targetStep? (reader : Reader) (chars : List Char) : Token → Option Step
  | .char c =>
      let target := chars.reverse
      if !isSpace c then
        (extendName? chars c).map fun chars => .more (reader.enter (.target chars))
      else if target = ['x', 'm', 'l'] ∧ reader.prolog = .untouched then
        some (.more (reader.enter (.declaration none (.between none))))
      else if isReserved target then
        none
      else
        some (.more (reader.enter .instruction))
  | .instructionClose =>
      if chars.isEmpty || isReserved chars.reverse then none else some (.more reader.resume)
  | _ => none

def instructionStep? (reader : Reader) : Token → Option Step
  | .instructionClose => some (.more reader.resume)
  | .char c => if reader.definitions.version.allows c then some (.more reader) else none
  | _ => some (.more reader)

def declarationStep? (reader : Reader) (encoding : Option String) (phase : DeclarationPhase)
    (token : Token) : Option Step := do
  match ← phase.step? reader.definitions token with
  | .more phase => some (.more (reader.enter (.declaration encoding phase)))
  | .version version =>
      some (.more { reader with
        definitions := { reader.definitions with version := version }
        phase := .declaration encoding (.afterValue .version) })
  | .encoding name =>
      some (.more (reader.enter (.declaration (some name) (.afterValue .encoding))))
  | .complete =>
      match encoding with
      | none => some (.more reader.resume)
      | some name => some (.recode name reader.resume)

def doctypeStep? (reader : Reader) (phase : DoctypePhase) (token : Token) : Option Step := do
  match ← phase.step? reader.definitions token with
  | .more phase => some (.more (reader.enter (.doctype phase)))
  | .declare name text =>
      some (.more { reader with
        definitions := reader.definitions.declare name text
        phase := .doctype .passing })
  | .expand text => some (.expand text (reader.enter (.doctype .outside)))
  | .complete => some (.more reader.resume)

/-! ## Tags -/

def qualifiers (reader : Reader) : List String :=
  match reader.elements with
  | [] => ["xml", "xmlns"]
  | element :: _ => element.qualifiers

def addElement (reader : Reader) (element : OpenElement) (outer : List OpenElement) : Step :=
  match outer with
  | [] => .complete element.close
  | parent :: outer =>
      .more { reader with elements := parent.addChild element.close :: outer, phase := .content }

def openElement? (reader : Reader) (tag : StartTag) : Option Step :=
  (tag.open? reader.qualifiers).map fun element =>
    .more { reader with elements := element :: reader.elements, phase := .content }

def emptyElement? (reader : Reader) (tag : StartTag) : Option Step :=
  (tag.open? reader.qualifiers).map fun element => reader.addElement element reader.elements

def closeElement? (reader : Reader) (name : QualifiedName) : Option Step :=
  match reader.elements with
  | [] => none
  | element :: outer => if name = element.name then some (reader.addElement element outer) else none

def startNameStep? (reader : Reader) (chars : List Char) : Token → Option Step
  | .char c =>
      if isSpace c then
        (QualifiedName.ofReversed? chars).map fun name =>
          .more (reader.enter (.startTag ⟨name, []⟩))
      else
        (extendQualifiedName? chars c).map fun chars => .more (reader.enter (.startName chars))
  | .tagClose => (QualifiedName.ofReversed? chars).bind fun name => reader.openElement? ⟨name, []⟩
  | .emptyTagClose =>
      (QualifiedName.ofReversed? chars).bind fun name => reader.emptyElement? ⟨name, []⟩
  | _ => none

def startTagStep? (reader : Reader) (tag : StartTag) : Token → Option Step
  | .char c =>
      if isSpace c then some (.more (reader.enter (.startTag tag)))
      else
        (extendQualifiedName? [] c).map fun chars =>
          .more (reader.enter (.inAttribute tag (.name chars)))
  | .tagClose => reader.openElement? tag
  | .emptyTagClose => reader.emptyElement? tag
  | _ => none

def attributeStep? (reader : Reader) (tag : StartTag) (phase : AttributePhase) (token : Token) :
    Option Step := do
  match ← phase.step? reader.definitions token with
  | .more phase => some (.more (reader.enter (.inAttribute tag phase)))
  | .complete name value =>
      let tag := { tag with attributes := (name, value) :: tag.attributes }
      some (.more (reader.enter (.afterAttribute tag)))

def afterAttributeStep? (reader : Reader) (tag : StartTag) : Token → Option Step
  | .char c => if isSpace c then some (.more (reader.enter (.startTag tag))) else none
  | .tagClose => reader.openElement? tag
  | .emptyTagClose => reader.emptyElement? tag
  | _ => none

def endNameStep? (reader : Reader) (chars : List Char) : Token → Option Step
  | .char c =>
      if isSpace c then
        (QualifiedName.ofReversed? chars).map fun name => .more (reader.enter (.endTag name))
      else
        (extendQualifiedName? chars c).map fun chars => .more (reader.enter (.endName chars))
  | .tagClose => (QualifiedName.ofReversed? chars).bind reader.closeElement?
  | _ => none

def endTagStep? (reader : Reader) (name : QualifiedName) : Token → Option Step
  | .char c => if isSpace c then some (.more (reader.enter (.endTag name))) else none
  | .tagClose => reader.closeElement? name
  | _ => none

/-! ## Documents -/

def step? (reader : Reader) (token : Token) : Option Step :=
  match reader.phase with
  | .content => reader.contentStep? token
  | .reference entity => reader.referenceStep? entity token
  | .comment => reader.commentStep? token
  | .data => reader.dataStep? token
  | .target chars => reader.targetStep? chars token
  | .instruction => reader.instructionStep? token
  | .declaration encoding phase => reader.declarationStep? encoding phase token
  | .doctype phase => reader.doctypeStep? phase token
  | .startName chars => reader.startNameStep? chars token
  | .startTag tag => reader.startTagStep? tag token
  | .inAttribute tag phase => reader.attributeStep? tag phase token
  | .afterAttribute tag => reader.afterAttributeStep? tag token
  | .endName chars => reader.endNameStep? chars token
  | .endTag name => reader.endTagStep? name token

def run (reader : Reader) (cursor : Cursor) : Option Node :=
  match _ : cursor.next? with
  | none => none
  | some (token, rest) =>
      match reader.step? token with
      | none => none
      | some (.complete root) => some root
      | some (.more reader) => reader.run rest
      | some (.expand text reader) =>
          match _ : rest.source.expand? text with
          | none => none
          | some source => reader.run (rest.along source)
      | some (.recode encoding reader) =>
          match _ : rest.source.recode? encoding with
          | none => none
          | some source => reader.run (rest.along source)
termination_by
  (cursor.source.bytes.length, Source.expansionLimit - cursor.source.expansions,
    cursor.source.replacement.length)
decreasing_by
  all_goals
    have hconsumes := Cursor.next?_consumes ‹cursor.next? = some (token, rest)›
    simp only [Source.Consumes] at hconsumes
    simp only [Prod.lex_def, Cursor.along]
  · grind
  · have := Source.expand?_eq ‹rest.source.expand? text = some source›
    grind
  · have := Source.recode?_eq ‹rest.source.recode? encoding = some source›
    grind

end Reader

def readDocument? (document : List UInt8) : Option Node :=
  Reader.initial.run (.ofBytes document)

end ObjectFlow.Markup
