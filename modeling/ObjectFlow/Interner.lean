/-!
# Interning tables

An interning table gives each new key the next id, counted from zero, and
keeps a payload with it.  A key keeps its id for good, and no key has two.
-/

namespace ObjectFlow

structure Interner (κ ν : Type) where
  entries : List (κ × ν)
  distinct : (entries.map Prod.fst).Nodup

namespace Interner

variable {κ ν : Type}

def empty : Interner κ ν := ⟨[], .nil⟩

instance : EmptyCollection (Interner κ ν) := ⟨empty⟩

instance : Inhabited (Interner κ ν) := ⟨empty⟩

def size (table : Interner κ ν) : Nat := table.entries.length

def isEmpty (table : Interner κ ν) : Bool := table.entries.isEmpty

def keys (table : Interner κ ν) : List κ := table.entries.map Prod.fst

def entry? (table : Interner κ ν) (id : Nat) : Option (κ × ν) := table.entries[id]?

def key? (table : Interner κ ν) (id : Nat) : Option κ :=
  table.entry? id |>.map Prod.fst

def payload? (table : Interner κ ν) (id : Nat) : Option ν :=
  table.entry? id |>.map Prod.snd

def lookup [DecidableEq κ] (table : Interner κ ν) (key : κ) : Option Nat :=
  table.entries.findIdx? fun entry => entry.1 = key

theorem lookup_eq_none_iff [DecidableEq κ] {table : Interner κ ν} {key : κ} :
    table.lookup key = none ↔ key ∉ table.keys := by
  simp only [lookup, keys, List.findIdx?_eq_none_iff, List.mem_map, Prod.exists,
    decide_eq_false_iff_not, Prod.forall]
  constructor
  · rintro differs ⟨other, payload, member, rfl⟩
    exact differs other payload member rfl
  · intro absent other payload member same
    exact absent ⟨other, payload, member, same⟩

/-- The id of a key, and the table with the key in it; the flag tells whether it is new. -/
def intern [DecidableEq κ] (table : Interner κ ν) (key : κ) (payload : ν) :
    (Nat × Bool) × Interner κ ν :=
  match found : table.lookup key with
  | some id => ((id, false), table)
  | none =>
      ((table.size, true),
        { entries := table.entries ++ [(key, payload)]
          distinct := by
            have fresh := lookup_eq_none_iff.mp found
            simp only [List.map_append, List.map_cons, List.map_nil]
            refine List.nodup_append.mpr ⟨table.distinct, by simp, ?_⟩
            intro other member last lastMember same
            simp only [List.mem_singleton] at lastMember
            subst lastMember
            exact fresh (same ▸ member) })

private theorem keys_modify (entries : List (κ × ν)) (id : Nat) (change : ν → ν) :
    (entries.modify id fun entry => (entry.1, change entry.2)).map Prod.fst =
      entries.map Prod.fst := by
  induction entries generalizing id with
  | nil => simp
  | cons first rest ih => cases id <;> simp [ih]

def modify (table : Interner κ ν) (id : Nat) (change : ν → ν) : Interner κ ν :=
  { entries := table.entries.modify id fun entry => (entry.1, change entry.2)
    distinct := by rw [keys_modify]; exact table.distinct }

def render (table : Interner κ ν) : String := s!"Interner \x7b len: {table.size} \x7d"

end Interner

end ObjectFlow
