import ObjectFlow.Proofs.Hierarchy.Linking

/-!
# Names of types

The text of a type stands for the type of its trimmed name.  When that is not
the name of a declared type, it has to end in brackets, and what stands before
them is the text of the type of the elements.  So a text can be resolved exactly
if a declared name comes to light in the end, and it mentions the array types on
the way, whatever array types there were before.
-/

namespace ObjectFlow.Text

/-! ## Trimming -/

theorem dropWhile_eq_self {α : Type} {drops : α → Bool} {items : List α}
    (keeps : ∀ item, items.head? = some item → drops item = false) :
    items.dropWhile drops = items := by
  cases items with
  | nil => rfl
  | cons item items => simp [keeps item rfl]

private theorem trimBoth_trimBoth (drops : Char → Bool) (chars : List Char) :
    trimBoth drops (trimBoth drops chars) = trimBoth drops chars := by
  unfold trimBoth
  have kept : ∀ (items : List Char) c, (items.dropWhile drops).head? = some c →
      drops c = false := by
    intro items c isHead
    have first := List.head?_dropWhile_not drops items
    rw [isHead] at first
    exact first
  have front : (((chars.dropWhile drops).reverse.dropWhile drops).reverse).dropWhile drops =
      ((chars.dropWhile drops).reverse.dropWhile drops).reverse := by
    refine dropWhile_eq_self fun c isHead => kept chars c ?_
    obtain ⟨dropped, same⟩ := List.dropWhile_suffix drops (l := (chars.dropWhile drops).reverse)
    rw [← List.reverse_reverse (chars.dropWhile drops), ← same, List.reverse_append,
      List.head?_append, isHead]
    rfl
  rw [front, List.reverse_reverse, dropWhile_eq_self (kept _)]

@[simp] theorem trim_trim (text : String) : trim (trim text) = trim text := by
  simp [trim, trimBoth_trimBoth]

private theorem head?_of_trimBoth {drops : Char → Bool} {chars : List Char}
    (isTrimmed : trimBoth drops chars = chars) (c : Char) (isHead : chars.head? = some c) :
    drops c = false := by
  have suffix := List.dropWhile_suffix drops (l := chars)
  have shorter : chars.length ≤ (chars.dropWhile drops).length := by
    have shorter := (List.dropWhile_suffix drops (l := (chars.dropWhile drops).reverse)).length_le
    have length := congrArg List.length isTrimmed
    rw [trimBoth, List.length_reverse] at length
    rwa [length, List.length_reverse] at shorter
  have first := List.head?_dropWhile_not drops chars
  rw [suffix.eq_of_length_le shorter, isHead] at first
  exact first

def Blank (text : String) : Prop := ∀ c ∈ text.toList, isBlank c = true

theorem stripBrackets?_eq_some_iff {name inner : String} :
    stripBrackets? name = some inner ↔ name = inner ++ "[]" := by
  constructor
  · intro found
    unfold stripBrackets? at found
    split at found
    · next rest isName =>
        cases found
        have isName := congrArg List.reverse isName
        rw [List.reverse_reverse] at isName
        apply String.toList_injective
        simp [isName]
    · cases found
  · rintro rfl
    simp [stripBrackets?]

theorem exists_blank_end {name inner : String} (isTrimmed : trim name = name)
    (isArray : stripBrackets? name = some inner) :
    ∃ gap, inner = trim inner ++ gap ∧ Blank gap := by
  obtain rfl := stripBrackets?_eq_some_iff.mp isArray
  have isTrimmed := congrArg String.toList isTrimmed
  rw [trim, String.toList_ofList] at isTrimmed
  have front : inner.toList.dropWhile isBlank = inner.toList := by
    refine dropWhile_eq_self fun c isHead => head?_of_trimBoth isTrimmed c ?_
    rw [String.toList_append, List.head?_append, isHead]
    rfl
  refine ⟨String.ofList (inner.toList.reverse.takeWhile isBlank).reverse, ?_, ?_⟩
  · apply String.toList_injective
    rw [String.toList_append, trim, String.toList_ofList, String.toList_ofList, trimBoth, front,
      ← List.reverse_append, List.takeWhile_append_dropWhile, List.reverse_reverse]
  · intro c member
    rw [String.toList_ofList, List.mem_reverse] at member
    exact List.all_eq_true.mp List.all_takeWhile c member

/-! ## Texts of types -/

inductive Mentions (base : List String) : String → String → Prop
  | here {text name : String} (isName : trim text = name) : Mentions base text name
  | inside {text inner name : String} (isNew : trim text ∉ base)
      (isArray : stripBrackets? (trim text) = some inner) (mentions : Mentions base inner name) :
      Mentions base text name

/-- The text is a declared name with any number of brackets. -/
inductive Resolves (base : List String) : String → Prop
  | known {text : String} (isKnown : trim text ∈ base) : Resolves base text
  | array {text inner : String} (isNew : trim text ∉ base)
      (isArray : stripBrackets? (trim text) = some inner) (nonempty : inner ≠ "")
      (resolves : Resolves base inner) : Resolves base text

variable {base : List String} {text inner name : String}

private theorem Mentions.of_trim (mentions : Mentions base (trim text) name) :
    Mentions base text name := by
  cases mentions with
  | here isName => exact .here (trim_trim text ▸ isName)
  | inside isNew isArray mentions =>
      rw [trim_trim] at isNew isArray
      exact .inside isNew isArray mentions

theorem Mentions.to_trim (mentions : Mentions base text name) :
    Mentions base (trim text) name := by
  cases mentions with
  | here isName => exact .here (by rwa [trim_trim])
  | inside isNew isArray mentions =>
      exact .inside (by rwa [trim_trim]) (by rwa [trim_trim]) mentions

private theorem Resolves.to_trim (resolves : Resolves base text) : Resolves base (trim text) := by
  cases resolves with
  | known isKnown => exact .known (by rwa [trim_trim])
  | array isNew isArray nonempty resolves =>
      exact .array (by rwa [trim_trim]) (by rwa [trim_trim]) nonempty resolves

theorem Resolves.of_trim (resolves : Resolves base (trim text)) : Resolves base text := by
  cases resolves with
  | known isKnown =>
      rw [trim_trim] at isKnown
      exact .known isKnown
  | array isNew isArray nonempty resolves =>
      rw [trim_trim] at isNew isArray
      exact .array isNew isArray nonempty resolves

theorem Mentions.trans {last : String} (first : Mentions base text name)
    (second : Mentions base name last) : Mentions base text last := by
  induction first with
  | here isName => exact (isName ▸ second).of_trim
  | inside isNew isArray _ ih => exact .inside isNew isArray (ih second)

theorem Mentions.resolves (mentions : Mentions base text name) (resolves : Resolves base text) :
    Resolves base name := by
  induction mentions with
  | here isName => exact isName ▸ resolves.to_trim
  | inside isNew isArray _ ih =>
      cases resolves with
      | known isKnown => exact absurd isKnown isNew
      | array _ isArray' _ resolves =>
          cases isArray.symm.trans isArray'
          exact ih resolves

theorem Mentions.length_le (mentions : Mentions base text name) :
    name.length ≤ (trim text).length := by
  induction mentions with
  | here isName => exact isName ▸ Nat.le_refl _
  | @inside text inner _ _ isArray _ ih =>
      have := length_trim_le inner
      have := length_stripBrackets?_lt isArray
      omega

theorem Mentions.eq_of_known (mentions : Mentions base text name) (isKnown : trim text ∈ base) :
    name = trim text := by
  cases mentions with
  | here isName => exact isName.symm
  | inside isNew => exact absurd isKnown isNew

theorem mentions_iff_of_array (isNew : trim text ∉ base)
    (isArray : stripBrackets? (trim text) = some inner) :
    Mentions base text name ↔ name = trim text ∨ Mentions base inner name := by
  constructor
  · intro mentions
    cases mentions with
    | here isName => exact .inl isName.symm
    | inside _ isArray' mentions =>
        cases isArray.symm.trans isArray'
        exact .inr mentions
  · rintro (rfl | mentions)
    · exact .here rfl
    · exact .inside isNew isArray mentions

theorem resolves_iff_of_array (isNew : trim text ∉ base)
    (isArray : stripBrackets? (trim text) = some inner) (nonempty : inner ≠ "") :
    Resolves base text ↔ Resolves base inner := by
  refine ⟨fun resolves => ?_, .array isNew isArray nonempty⟩
  cases resolves with
  | known isKnown => exact absurd isKnown isNew
  | array _ isArray' _ resolves =>
      cases isArray.symm.trans isArray'
      exact resolves

/-! ## Other lists of declared names -/

theorem Mentions.mono {base' : List String} (same : ∀ name, name ∈ base ↔ name ∈ base')
    (mentions : Mentions base text name) : Mentions base' text name := by
  induction mentions with
  | here isName => exact .here isName
  | inside isNew isArray _ ih => exact .inside (fun known => isNew ((same _).mpr known)) isArray ih

theorem Resolves.mono {base' : List String} (same : ∀ name, name ∈ base ↔ name ∈ base')
    (resolves : Resolves base text) : Resolves base' text := by
  induction resolves with
  | known isKnown => exact .known ((same _).mp isKnown)
  | array isNew isArray nonempty _ ih =>
      exact .array (fun known => isNew ((same _).mpr known)) isArray nonempty ih

end ObjectFlow.Text
