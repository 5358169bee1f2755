import ObjectFlow.Markup.Name
import ObjectFlow.Markup.Source
import ObjectFlow.Markup.Token

/-!
# Reading tokens

A cursor is a place in a document.  What counts as a token depends on the
region that the cursor is in, and tokens open and close regions.  Every token
takes some character away (`Cursor.next?_consumes`).
-/

namespace ObjectFlow.Markup

inductive Region where
  | content
  | comment
  | data
  | instruction
  | doctype
  | declaration
  | literal (quote : Quote)
  deriving DecidableEq, Repr

structure Cursor where
  source : Source
  region : Region
  inDoctype : Bool

namespace Cursor

def ofBytes (document : List UInt8) : Cursor :=
  { source := .ofBytes document, region := .content, inDoctype := false }

def into (cursor : Cursor) (region : Region) (source : Source) : Cursor :=
  { cursor with region := region, source := source }

def along (cursor : Cursor) (source : Source) : Cursor :=
  { cursor with source := source }

def outward (cursor : Cursor) (source : Source) : Cursor :=
  cursor.into (if cursor.inDoctype then .doctype else .content) source

/-! ## Tokens by region

The functions take the cursor before a token and what follows the characters of the token that have
been looked at.
-/

def afterMark? (cursor : Cursor) (source : Source) : Option (Token × Cursor) :=
  match source.skip? ['-', '-'] with
  | some rest => some (.commentOpen, cursor.into .comment rest)
  | none =>
      match source.skip? ['[', 'C', 'D', 'A', 'T', 'A', '['] with
      | some rest => some (.dataOpen, cursor.into .data rest)
      | none =>
          match source.skip? ['D', 'O', 'C', 'T', 'Y', 'P', 'E'] with
          | some rest => some (.doctypeOpen, ⟨rest, .doctype, true⟩)
          | none =>
              match source.take? with
              | some (c, _) =>
                  if cursor.inDoctype ∧ (c = 'E' ∨ c = 'A' ∨ c = 'N') then
                    some (.declarationOpen, cursor.into .declaration source)
                  else
                    none
              | none => none

def afterBracket? (cursor : Cursor) (source : Source) : Option (Token × Cursor) :=
  match source.take? with
  | some (c, rest) =>
      if c = '?' then some (.instructionOpen, cursor.into .instruction rest)
      else if c = '/' then some (.endTagOpen, cursor.outward rest)
      else if c = '!' then cursor.afterMark? rest
      else if isSpace c || isNameChar c then some (.tagOpen, cursor.outward source)
      else none
  | none => none

def contentToken? (cursor : Cursor) (source : Source) : Char → Option (Token × Cursor)
  | '<' => cursor.afterBracket? source
  | '>' => some (.tagClose, cursor.along source)
  | '/' =>
      match source.skip? ['>'] with
      | some rest => some (.emptyTagClose, cursor.outward rest)
      | none => some (.char '/', cursor.outward source)
  | ']' =>
      match source.skip? [']', '>'] with
      | some rest => some (.dataClose, cursor.outward rest)
      | none => some (.char ']', cursor.along source)
  | '=' => some (.equals, cursor.along source)
  | '\x22' => some (.quote .double, cursor.along source)
  | '\x27' => some (.quote .single, cursor.along source)
  | '&' => some (.ampersand, cursor.along source)
  | ';' => some (.semicolon, cursor.along source)
  | c => some (.char c, cursor.along source)

/-- A token of a comment.  Two hyphens may only end it. -/
def commentToken? (cursor : Cursor) (source : Source) : Char → Option (Token × Cursor)
  | '-' =>
      match source.skip? ['-'] with
      | some rest =>
          match rest.skip? ['>'] with
          | some rest => some (.commentClose, cursor.outward rest)
          | none => none
      | none => some (.char '-', cursor.along source)
  | c => some (.char c, cursor.along source)

/-- A token of a section of plain characters, which ends in content wherever it began. -/
def dataToken? (cursor : Cursor) (source : Source) : Char → Option (Token × Cursor)
  | ']' =>
      match source.skip? [']', '>'] with
      | some rest => some (.dataClose, cursor.into .content rest)
      | none => some (.char ']', cursor.along source)
  | c => some (.char c, cursor.along source)

def instructionToken? (cursor : Cursor) (source : Source) : Char → Option (Token × Cursor)
  | '?' =>
      match source.skip? ['>'] with
      | some rest => some (.instructionClose, cursor.outward rest)
      | none => some (.char '?', cursor.along source)
  | '<' => some (.tagOpen, cursor.along source)
  | '>' => some (.tagClose, cursor.along source)
  | '=' => some (.equals, cursor.along source)
  | '\x22' => some (.quote .double, cursor.along source)
  | '\x27' => some (.quote .single, cursor.along source)
  | '&' => some (.ampersand, cursor.along source)
  | ';' => some (.semicolon, cursor.along source)
  | c => some (.char c, cursor.along source)

def doctypeToken? (cursor : Cursor) (source : Source) : Char → Option (Token × Cursor)
  | '<' => cursor.afterBracket? source
  | '>' => some (.tagClose, ⟨source, .content, false⟩)
  | '\x22' => some (.quote .double, cursor.along source)
  | '\x27' => some (.quote .single, cursor.along source)
  | '&' => some (.ampersand, cursor.along source)
  | ';' => some (.semicolon, cursor.along source)
  | c => some (.char c, cursor.along source)

def declarationToken? (cursor : Cursor) (source : Source) : Char → Option (Token × Cursor)
  | '<' => none
  | '>' => some (.tagClose, cursor.outward source)
  | '\x22' => some (.quote .double, cursor.into (.literal .double) source)
  | '\x27' => some (.quote .single, cursor.into (.literal .single) source)
  | '&' => some (.ampersand, cursor.along source)
  | ';' => some (.semicolon, cursor.along source)
  | c => some (.char c, cursor.along source)

def literalToken? (cursor : Cursor) (source : Source) (quote : Quote) (c : Char) :
    Option (Token × Cursor) :=
  if c = quote.char then some (.quote quote, cursor.into .declaration source)
  else some (.char c, cursor.along source)

def tokenFrom? (cursor : Cursor) (source : Source) (c : Char) : Option (Token × Cursor) :=
  match cursor.region with
  | .content => cursor.contentToken? source c
  | .comment => cursor.commentToken? source c
  | .data => cursor.dataToken? source c
  | .instruction => cursor.instructionToken? source c
  | .doctype => cursor.doctypeToken? source c
  | .declaration => cursor.declarationToken? source c
  | .literal quote => cursor.literalToken? source quote c

def next? (cursor : Cursor) : Option (Token × Cursor) :=
  match cursor.source.take? with
  | some (c, rest) => cursor.tokenFrom? rest c
  | none => none

/-! ## Progress -/

private theorem reaches_some {source : Source} {token token' : Token} {cursor cursor' : Cursor}
    (hreach : source.Reaches cursor.source) (h : some (token, cursor) = some (token', cursor')) :
    source.Reaches cursor'.source := by
  simp only [Option.some.injEq, Prod.mk.injEq] at h
  exact h.2 ▸ hreach

private theorem afterMark?_reaches {cursor after : Cursor} {source : Source} {token : Token}
    (h : cursor.afterMark? source = some (token, after)) : source.Reaches after.source := by
  unfold afterMark? at h
  repeat' split at h
  all_goals first
    | exact reaches_some (Source.skip?_reaches ‹_›) h
    | exact reaches_some (.refl _) h
    | contradiction

private theorem afterBracket?_reaches {cursor after : Cursor} {source : Source} {token : Token}
    (h : cursor.afterBracket? source = some (token, after)) : source.Reaches after.source := by
  unfold afterBracket? at h
  split at h
  · next c rest htake =>
      have hrest := (Source.take?_consumes htake).reaches
      repeat' split at h
      · exact reaches_some hrest h
      · exact reaches_some hrest h
      · exact hrest.trans (afterMark?_reaches h)
      · exact reaches_some (.refl _) h
      · contradiction
  · contradiction

private theorem tokenFrom?_reaches {cursor after : Cursor} {source : Source} {c : Char}
    {token : Token} (h : cursor.tokenFrom? source c = some (token, after)) :
    source.Reaches after.source := by
  unfold tokenFrom? contentToken? commentToken? dataToken? instructionToken? doctypeToken?
    declarationToken? literalToken? at h
  repeat' split at h
  all_goals first
    | exact afterBracket?_reaches h
    | exact reaches_some (.refl _) h
    | exact reaches_some (Source.skip?_reaches ‹_›) h
    | exact reaches_some ((Source.skip?_reaches ‹_›).trans (Source.skip?_reaches ‹_›)) h
    | contradiction

/-- Every token takes some character away. -/
theorem next?_consumes {cursor after : Cursor} {token : Token}
    (h : cursor.next? = some (token, after)) : cursor.source.Consumes after.source := by
  unfold next? at h
  split at h
  · next htake => exact (Source.take?_consumes htake).trans (tokenFrom?_reaches h)
  · contradiction

end Cursor

end ObjectFlow.Markup
