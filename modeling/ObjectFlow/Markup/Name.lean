/-!
# Characters and names of markup

Which characters a document may hold depends on its version: version 1.1
allows control characters, most of them only where they need not be typed.
Names are made up of the same characters in both versions.  A name is a local
part with an optional qualifier before a colon.
-/

namespace ObjectFlow.Markup

private def within (code : Nat) (ranges : List (Nat × Nat)) : Bool :=
  ranges.any fun range => range.1 ≤ code && code ≤ range.2

inductive Version where
  | v10
  | v11
  deriving DecidableEq, Repr

namespace Version

def allows (version : Version) (c : Char) : Bool :=
  match version with
  | v10 =>
      within c.toNat [(0x09, 0x0A), (0x0D, 0x0D), (0x20, 0xD7FF), (0xE000, 0xFFFD),
        (0x10000, 0x10FFFF)]
  | v11 => within c.toNat [(0x01, 0xD7FF), (0xE000, 0xFFFD), (0x10000, 0x10FFFF)]

def restricts (version : Version) (c : Char) : Bool :=
  match version with
  | v10 => false
  | v11 =>
      within c.toNat [(0x01, 0x08), (0x0B, 0x0C), (0x0E, 0x1F), (0x7F, 0x84), (0x86, 0x9F)]

def allowsAsIs (version : Version) (c : Char) : Bool :=
  version.allows c && !version.restricts c

end Version

def isSpace (c : Char) : Bool :=
  c == ' ' || c == '\t' || c == '\n' || c == '\r'

def isNameStart (c : Char) : Bool :=
  within c.toNat [(0x3A, 0x3A), (0x41, 0x5A), (0x5F, 0x5F), (0x61, 0x7A), (0xC0, 0xD6),
    (0xD8, 0xF6), (0xF8, 0x2FF), (0x370, 0x37D), (0x37F, 0x1FFF), (0x200C, 0x200D),
    (0x2070, 0x218F), (0x2C00, 0x2FEF), (0x3001, 0xD7FF), (0xF900, 0xFDCF), (0xFDF0, 0xFFFD),
    (0x10000, 0xEFFFF)]

def isNameChar (c : Char) : Bool :=
  isNameStart c ||
    within c.toNat [(0x2D, 0x2E), (0x30, 0x39), (0xB7, 0xB7), (0x300, 0x36F), (0x203F, 0x2040)]

/-! ## Names read one character at a time

The characters read so far are kept with the last one first.
-/

def extendName? (name : List Char) (c : Char) : Option (List Char) :=
  if (if name.isEmpty then isNameStart c else isNameChar c) then some (c :: name) else none

/-- A qualified name with one more character: one colon at most, and not in front. -/
def extendQualifiedName? (name : List Char) (c : Char) : Option (List Char) :=
  if c = ':' ∧ (name.isEmpty ∨ ':' ∈ name) then none else extendName? name c

structure QualifiedName where
  qualifier : Option String
  localPart : String
  deriving DecidableEq, Repr

def QualifiedName.ofReversed? (name : List Char) : Option QualifiedName :=
  match name.span (· ≠ ':') with
  | ([], _) => none
  | (whole, []) => some ⟨none, String.ofList whole.reverse⟩
  | (_, [_]) => none
  | (rest, _ :: qualifier) =>
      some ⟨some (String.ofList qualifier.reverse), String.ofList rest.reverse⟩

end ObjectFlow.Markup
