import ObjectFlow.Text.Encoding

/-!
# Characters of a document

The characters of a document come from its bytes.  Before those there may be
replacement texts, which are read first.

Reading ends because every character takes something away: bytes, or else
characters of the replacement texts (`Source.take?_consumes`).  Texts can be
put before the bytes only a limited number of times until the next byte is
read (`Source.expand?_eq`).
-/

namespace ObjectFlow.Markup

open Text

structure Source where
  encoding : Encoding
  bytes : List UInt8
  replacement : List Char
  /-- How many replacement texts were put before the bytes since the last byte was read. -/
  expansions : Nat

namespace Source

def ofBytes (document : List UInt8) : Source :=
  let (encoding, bytes) := Encoding.detect document
  { encoding := encoding, bytes := bytes, replacement := [], expansions := 0 }

def take? (source : Source) : Option (Char × Source) :=
  match source.replacement with
  | c :: rest => some (c, { source with replacement := rest })
  | [] =>
      (source.encoding.next? source.bytes).map fun (c, rest) =>
        (c, { source with bytes := rest, expansions := 0 })

def skip? (source : Source) : List Char → Option Source
  | [] => some source
  | expected :: literal =>
      match source.take? with
      | some (c, rest) => if c = expected then rest.skip? literal else none
      | none => none

/-! ## Replacement texts and encodings -/

/-- How often texts may be put before the bytes until the next byte is read. -/
def expansionLimit : Nat := 10

/-- How much of earlier texts may be left when another one is put before them. -/
def replacementLimit : Nat := 1000000

def expand? (source : Source) (text : List Char) : Option Source :=
  if text.isEmpty then
    some source
  else if source.expansions < expansionLimit ∧ source.replacement.length ≤ replacementLimit then
    some { source with
      replacement := text ++ source.replacement
      expansions := source.expansions + 1 }
  else
    none

def recode? (source : Source) (name : String) : Option Source := do
  let family ← EncodingFamily.ofName? name
  let encoding ← source.encoding.declare? family
  pure { source with encoding := encoding }

/-! ## Progress -/

def Reaches (before after : Source) : Prop :=
  after.bytes.length < before.bytes.length ∨
    (after.bytes = before.bytes ∧ after.expansions = before.expansions ∧
      after.replacement.length ≤ before.replacement.length)

def Consumes (before after : Source) : Prop :=
  after.bytes.length < before.bytes.length ∨
    (after.bytes = before.bytes ∧ after.expansions = before.expansions ∧
      after.replacement.length < before.replacement.length)

theorem Reaches.refl (source : Source) : Reaches source source :=
  .inr ⟨rfl, rfl, Nat.le_refl _⟩

theorem Reaches.trans {first second third : Source} (h : Reaches first second)
    (h' : Reaches second third) : Reaches first third := by
  unfold Reaches at *
  grind

theorem Consumes.trans {first second third : Source} (h : Consumes first second)
    (h' : Reaches second third) : Consumes first third := by
  unfold Reaches at h'
  unfold Consumes at *
  grind

theorem Consumes.reaches {before after : Source} (h : Consumes before after) :
    Reaches before after := by
  unfold Reaches
  unfold Consumes at h
  grind

theorem take?_consumes {source rest : Source} {c : Char} (h : source.take? = some (c, rest)) :
    Consumes source rest := by
  unfold take? at h
  split at h
  · next heq =>
      obtain ⟨rfl, rfl⟩ := by simpa using h
      exact .inr ⟨rfl, rfl, by simp [heq]⟩
  · obtain ⟨⟨d, bytes⟩, hnext, heq⟩ := Option.map_eq_some_iff.1 h
    obtain ⟨rfl, rfl⟩ := by simpa using heq
    exact .inl (Encoding.next?_length hnext)

theorem skip?_reaches {source rest : Source} {literal : List Char}
    (h : source.skip? literal = some rest) : Reaches source rest := by
  induction literal generalizing source with
  | nil =>
      obtain rfl := by simpa [skip?] using h
      exact .refl _
  | cons expected literal ih =>
      simp only [skip?] at h
      split at h
      · next htake =>
          split at h
          · exact (take?_consumes htake).reaches.trans (ih h)
          · simp at h
      · simp at h

theorem expand?_eq {source rest : Source} {text : List Char}
    (h : source.expand? text = some rest) :
    rest = source ∨ (rest.bytes = source.bytes ∧ rest.expansions = source.expansions + 1 ∧
      rest.expansions ≤ expansionLimit) := by
  unfold expand? at h
  grind

theorem recode?_eq {source rest : Source} {name : String} (h : source.recode? name = some rest) :
    rest = { source with encoding := rest.encoding } := by
  simp only [recode?, Option.bind_eq_bind, Option.bind_eq_some_iff, Option.pure_def,
    Option.some.injEq] at h
  obtain ⟨_, _, _, _, rfl⟩ := h
  rfl

end Source

end ObjectFlow.Markup
