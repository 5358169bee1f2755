import ObjectFlow.Markup.Name

/-!
# Element trees

A document is one element.  Its children are elements and the pieces of text
between them, which are trimmed.  Blank pieces are left out, unless a reference
to an entity precedes their first character.  Names keep their local part only.
-/

namespace ObjectFlow.Markup

inductive Node where
  | text (content : String)
  | element (name : String) (attributes : List (String × String)) (children : List Node)
  deriving Repr

structure OpenElement where
  name : QualifiedName
  attributes : List (String × String)
  qualifiers : List String
  children : List Node
  /-- Characters of the text piece being read, the last one first. -/
  pending : List Char
  /-- Does the text piece being read count even if it is blank? -/
  counted : Bool

namespace OpenElement

def flush (element : OpenElement) : OpenElement :=
  let trimmed := ((element.pending.dropWhile isSpace).reverse).dropWhile isSpace
  let children :=
    if element.pending.isEmpty || (trimmed.isEmpty && !element.counted) then element.children
    else .text (String.ofList trimmed) :: element.children
  { element with children := children, pending := [], counted := false }

def addText (element : OpenElement) (chars : List Char) : OpenElement :=
  { element with pending := chars.reverse ++ element.pending }

/-- Add a character that stands between tags.  A piece of text does not begin with a space. -/
def addChar (element : OpenElement) (c : Char) : OpenElement :=
  if element.pending.isEmpty && isSpace c then element else element.addText [c]

def refer (element : OpenElement) : OpenElement :=
  { element with counted := element.counted || element.pending.isEmpty }

def addChild (element : OpenElement) (child : Node) : OpenElement :=
  { element with children := child :: element.children }

def close (element : OpenElement) : Node :=
  .element element.name.localPart element.attributes element.children.reverse

end OpenElement

/-! ## Start tags -/

structure StartTag where
  name : QualifiedName
  attributes : List (QualifiedName × String)

/-- A namespace by the parts of its name below the authority that names namespaces. -/
def reservedNamespace (parts : List String) : String :=
  String.intercalate "/" (["http:", "", "www.w3.org"] ++ parts)

def xmlNamespace : String := reservedNamespace ["XML", "1998", "namespace"]

def xmlnsNamespace : String := reservedNamespace ["2000", "xmlns", ""]

def declaredQualifiers? (name : QualifiedName) (value : String) : Option (List String) :=
  match name.qualifier, name.localPart with
  | some "xmlns", declared =>
      if declared = "xmlns" ∨ value.isEmpty ∨ (declared = "xml" ∧ value ≠ xmlNamespace) then none
      else some [declared]
  | none, "xmlns" =>
      if value ∈ ["xml", "xmlns", xmlNamespace, xmlnsNamespace] then none else some []
  | _, _ => some []

def isNamespaceDeclaration (name : QualifiedName) : Bool :=
  name.qualifier = some "xmlns" || (name.qualifier = none && name.localPart = "xmlns")

def StartTag.open? (tag : StartTag) (inherited : List String) : Option OpenElement := do
  let attributes := tag.attributes.reverse
  let declared ← attributes.mapM fun (key, value) => declaredQualifiers? key value
  let qualifiers := declared.flatten ++ inherited
  let regular := attributes.filter fun (key, _) => !isNamespaceDeclaration key
  let names := regular.map Prod.fst
  let bound := fun (used : QualifiedName) =>
    match used.qualifier with
    | none => true
    | some qualifier => qualifiers.contains qualifier
  let reserved := tag.name.qualifier = some "xml" || tag.name.qualifier = some "xmlns"
  if names.eraseDups.length = names.length && names.all bound && bound tag.name && !reserved then
    pure {
      name := tag.name
      attributes := regular.map fun (key, value) => (key.localPart, value)
      qualifiers := qualifiers
      children := []
      pending := []
      counted := false }
  else
    none

end ObjectFlow.Markup
