import ObjectFlow.Interner

/-!
# Interning as numbering

The ids of an interning table and its keys correspond one to one, and neither
interning a key nor changing a payload disturbs an id that was given out.
-/

namespace ObjectFlow.Interner

variable {κ ν : Type} {table : Interner κ ν} {key : κ} {payload : ν} {id : Nat}

theorem key?_eq (table : Interner κ ν) (id : Nat) : table.key? id = table.keys[id]? := by
  simp [key?, entry?, keys]

theorem mem_keys_iff : key ∈ table.keys ↔ ∃ id, table.key? id = some key := by
  simp only [key?_eq, List.mem_iff_getElem?]

theorem key?_lt (found : table.key? id = some key) : id < table.size := by
  rw [key?_eq] at found
  have inside := (List.getElem?_eq_some_iff.mp found).1
  simpa [keys, size] using inside

theorem key?_injective {other : Nat} (found : table.key? id = some key)
    (again : table.key? other = some key) : id = other := by
  rw [key?_eq] at found again
  have inside := (List.getElem?_eq_some_iff.mp found).1
  exact (List.getElem?_inj inside table.distinct).mp (found.trans again.symm)

theorem lookup_eq_some_iff [DecidableEq κ] :
    table.lookup key = some id ↔ table.key? id = some key := by
  constructor
  · intro found
    obtain ⟨inside, same, _⟩ := List.findIdx?_eq_some_iff_getElem.mp found
    simp only [decide_eq_true_eq] at same
    simp [key?, entry?, List.getElem?_eq_getElem inside, same]
  · intro found
    cases looked : table.lookup key with
    | none =>
        exact absurd (mem_keys_iff.mpr ⟨id, found⟩) (lookup_eq_none_iff.mp looked)
    | some other =>
        obtain ⟨inside, same, _⟩ := List.findIdx?_eq_some_iff_getElem.mp looked
        simp only [decide_eq_true_eq] at same
        have here : table.key? other = some key := by
          simp [key?, entry?, List.getElem?_eq_getElem inside, same]
        rw [key?_injective here found]

/-- A key that is in the table keeps its id; another gets the next one. -/
theorem intern_cases [DecidableEq κ] (table : Interner κ ν) (key : κ) (payload : ν) :
    (∃ id, table.key? id = some key ∧ table.intern key payload = ((id, false), table)) ∨
      (key ∉ table.keys ∧ ∃ grown : Interner κ ν,
        table.intern key payload = ((table.size, true), grown) ∧
        grown.entries = table.entries ++ [(key, payload)]) := by
  unfold intern
  split
  · next id found => exact .inl ⟨id, lookup_eq_some_iff.mp found, rfl⟩
  · next found => exact .inr ⟨lookup_eq_none_iff.mp found, _, rfl, rfl⟩

section Appended

variable {grown : Interner κ ν} (entries : grown.entries = table.entries ++ [(key, payload)])
include entries

theorem entry?_append_of_some {other : κ × ν} (found : table.entry? id = some other) :
    grown.entry? id = some other := by
  unfold entry? at *
  rw [entries, List.getElem?_append_left (List.getElem?_eq_some_iff.mp found).1]
  exact found

theorem entry?_append_size : grown.entry? table.size = some (key, payload) := by
  simp [size, entry?, entries]

theorem entry?_append_cases {other : κ × ν} (found : grown.entry? id = some other) :
    table.entry? id = some other ∨ (id = table.size ∧ other = (key, payload)) := by
  unfold entry? at *
  rw [entries] at found
  rcases Nat.lt_trichotomy id table.entries.length with below | here | above
  · rw [List.getElem?_append_left below] at found
    exact .inl found
  · subst here
    simp only [List.getElem?_concat_length, Option.some.injEq] at found
    exact .inr ⟨rfl, found.symm⟩
  · rw [List.getElem?_eq_none (by simp; omega)] at found
    cases found

end Appended

/-! ## The table after interning -/

section Interned

variable [DecidableEq κ]

theorem key?_intern {other : κ} (found : table.key? id = some other) :
    (table.intern key payload).2.key? id = some other := by
  rcases intern_cases table key payload with ⟨_, _, same⟩ | ⟨_, grown, fresh, entries⟩
  · rw [same]
    exact found
  · obtain ⟨entry, held, rfl⟩ := Option.map_eq_some_iff.mp found
    rw [fresh]
    simp [key?, entry?_append_of_some entries held]

theorem key?_intern_self :
    (table.intern key payload).2.key? (table.intern key payload).1.1 = some key := by
  rcases intern_cases table key payload with ⟨_, found, same⟩ | ⟨_, grown, fresh, entries⟩
  · rw [same]
    exact found
  · rw [fresh]
    simp [key?, entry?_append_size entries]

theorem key?_intern_cases {other : κ}
    (found : (table.intern key payload).2.key? id = some other) :
    table.key? id = some other ∨ id = (table.intern key payload).1.1 ∧ other = key := by
  rcases intern_cases table key payload with ⟨_, _, same⟩ | ⟨_, grown, fresh, entries⟩
  · rw [same] at found
    exact .inl found
  · rw [fresh] at found ⊢
    obtain ⟨entry, held, rfl⟩ := Option.map_eq_some_iff.mp found
    rcases entry?_append_cases entries held with earlier | ⟨last, rfl⟩
    · exact .inl (by simp [key?, earlier])
    · exact .inr ⟨last, rfl⟩

theorem mem_keys_intern {other : κ} :
    other ∈ (table.intern key payload).2.keys ↔ other ∈ table.keys ∨ other = key := by
  simp only [mem_keys_iff]
  constructor
  · rintro ⟨id, found⟩
    rcases key?_intern_cases found with earlier | ⟨_, rfl⟩
    · exact .inl ⟨id, earlier⟩
    · exact .inr rfl
  · rintro (⟨id, found⟩ | rfl)
    · exact ⟨id, key?_intern found⟩
    · exact ⟨_, key?_intern_self⟩

theorem intern_new_iff : (table.intern key payload).1.2 = true ↔ key ∉ table.keys := by
  rcases intern_cases table key payload with ⟨id, found, same⟩ | ⟨absent, grown, fresh, _⟩
  · rw [same]
    exact iff_of_false Bool.false_ne_true fun absent => absent (mem_keys_iff.mpr ⟨id, found⟩)
  · rw [fresh]
    exact iff_of_true rfl absent

end Interned

theorem getElem?_entries_modify (table : Interner κ ν) (id other : Nat) (change : ν → ν) :
    (table.modify id change).entries[other]? =
      table.entries[other]?.map fun entry =>
        if id = other then (entry.1, change entry.2) else entry := by
  simp only [modify, List.getElem?_modify, Option.map_eq_map]

@[simp] theorem key?_modify (table : Interner κ ν) (id other : Nat) (change : ν → ν) :
    (table.modify id change).key? other = table.key? other := by
  simp only [key?, entry?, getElem?_entries_modify, Option.map_map]
  congr 1
  funext entry
  simp only [Function.comp_apply]
  split <;> rfl

theorem payload?_modify (table : Interner κ ν) (id other : Nat) (change : ν → ν) :
    (table.modify id change).payload? other =
      (table.payload? other).map fun payload => if id = other then change payload else payload := by
  simp only [payload?, entry?, getElem?_entries_modify, Option.map_map]
  congr 1
  funext entry
  simp only [Function.comp_apply]
  split <;> rfl

/-! ## Changing every payload -/

section Map

variable {μ : Type} (change : ν → μ) (table : Interner κ ν)

def map : Interner κ μ :=
  { entries := table.entries.map fun entry => (entry.1, change entry.2)
    distinct := by
      rw [List.map_map]
      exact table.distinct }

@[simp] theorem size_map : (table.map change).size = table.size :=
  List.length_map _

theorem payload?_map (id : Nat) :
    (table.map change).payload? id = (table.payload? id).map change := by
  simp [payload?, entry?, map, Function.comp_def]

theorem lookup_map [DecidableEq κ] (key : κ) :
    (table.map change).lookup key = table.lookup key := by
  simp [lookup, map, List.findIdx?_map, Function.comp_def]

theorem intern_map [DecidableEq κ] (key : κ) (payload : ν) :
    (table.map change).intern key (change payload) =
      ((table.intern key payload).1, (table.intern key payload).2.map change) := by
  have same := table.lookup_map change key
  unfold intern
  split
  · next id found =>
      rw [same] at found
      split
      · next other found' => rw [Option.some.inj (found.symm.trans found')]
      · next absent => cases found.symm.trans absent
  · next absent =>
      rw [same] at absent
      split
      · next id found => cases absent.symm.trans found
      · simp [map, size]

end Map

end ObjectFlow.Interner
