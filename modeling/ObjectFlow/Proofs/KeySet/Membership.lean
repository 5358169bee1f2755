import Mathlib.Algebra.Group.Nat.Defs
import ObjectFlow.KeySet.Basic

/-!
# Sets of keys as sets

A key that is looked up is found exactly if it is listed in the snapshot, and
adding a key adds that key and no other.  For a hashed set this rests on an
invariant: every key stands in the segment and in the bucket that its hash
selects.  Doubling a table keeps it.
-/

namespace ObjectFlow

/-! ## Bit vectors -/

namespace BitVectorSet

private theorem getElem?_reserve (words : List (BitVec 64)) (index : Nat) (at' : Nat) :
    ((reserve words index)[at']?).getD 0 = (words[at']?).getD 0 := by
  unfold reserve
  split
  · rfl
  · by_cases inside : at' < words.length
    · rw [List.getElem?_append_left inside]
    · rw [List.getElem?_append_right (by omega)]
      simp only [List.getElem?_replicate, List.getElem?_eq_none (by omega : words.length ≤ at')]
      split <;> rfl

private theorem length_reserve (words : List (BitVec 64)) (index : Nat) :
    index < (reserve words index).length := by
  unfold reserve
  split
  · assumption
  · simp only [List.length_append, List.length_replicate]
    omega

theorem contains_eq_getD (set : BitVectorSet) (key : Nat) :
    set.contains key = ((set.words[key / wordBits]?).getD 0).getLsbD (key % wordBits) := by
  unfold contains
  cases set.words[key / wordBits]? with
  | none => simp
  | some word => rfl

theorem contains_add (set : BitVectorSet) (key other : Nat) :
    (set.add key).2.contains other = true ↔ other = key ∨ set.contains other = true := by
  unfold add
  split
  · next known =>
      constructor
      · exact .inr
      · rintro (rfl | held)
        · exact known
        · exact held
  · simp only [contains_eq_getD, List.getElem?_modify]
    by_cases sameWord : key / wordBits = other / wordBits
    · have long := length_reserve set.words (key / wordBits)
      have sameKey : other % wordBits = key % wordBits ↔ other = key := by
        unfold wordBits at *
        omega
      have within : other % wordBits < 64 := Nat.mod_lt _ (by decide)
      rw [← sameWord, ← getElem?_reserve set.words (key / wordBits),
        List.getElem?_eq_getElem long]
      simp only [if_true, Option.map_eq_map, Option.map_some, Option.getD_some,
        BitVec.getLsbD_or, BitVec.getLsbD_twoPow, Bool.or_eq_true, Bool.and_eq_true,
        decide_eq_true_eq]
      rw [← sameKey]
      constructor
      · rintro (held | ⟨_, same⟩)
        · exact .inr held
        · exact .inl same.symm
      · rintro (same | held)
        · exact .inr ⟨by omega, same.symm⟩
        · exact .inl held
    · have differ : other ≠ key := fun same => sameWord (by rw [same])
      simp only [if_neg sameWord, id_map', getElem?_reserve, differ, false_or]

theorem add_fst (set : BitVectorSet) (key : Nat) :
    (set.add key).1 = !set.contains key := by
  unfold add
  cases held : set.contains key <;> simp

theorem mem_snapshot {set : BitVectorSet} {key : Nat} :
    key ∈ set.snapshot ↔ set.contains key = true := by
  simp only [snapshot, OrderedSet.mem_ofList, List.mem_flatMap, Prod.exists]
  constructor
  · rintro ⟨word, index, listed, member⟩
    have found : set.words[index]? = some word := List.mem_zipIdx_iff_getElem?.mp listed
    unfold wordKeys at member
    split at member
    · cases member
    · obtain ⟨bit, bitSet, rfl⟩ := List.mem_map.mp member
      obtain ⟨below, isSet⟩ := List.mem_filter.mp bitSet
      have small : bit < wordBits := List.mem_range.mp below
      have quotient : (index * wordBits + bit) / wordBits = index := by
        rw [Nat.mul_comm, Nat.mul_add_div (by decide), Nat.div_eq_of_lt small, Nat.add_zero]
      have remainder : (index * wordBits + bit) % wordBits = bit := by
        rw [Nat.mul_comm, Nat.mul_add_mod, Nat.mod_eq_of_lt small]
      rw [contains_eq_getD, quotient, remainder, found]
      exact isSet
  · intro held
    rw [contains_eq_getD] at held
    cases found : set.words[key / wordBits]? with
    | none => simp [found] at held
    | some word =>
        rw [found, Option.getD_some] at held
        refine ⟨word, key / wordBits, List.mem_zipIdx_iff_getElem?.mpr found, ?_⟩
        unfold wordKeys
        split
        · next zero => simp [zero] at held
        · refine List.mem_map.mpr ⟨key % wordBits, List.mem_filter.mpr ⟨?_, held⟩, ?_⟩
          · exact List.mem_range.mpr (Nat.mod_lt _ (by decide))
          · rw [Nat.mul_comm]
            exact Nat.div_add_mod key wordBits

end BitVectorSet

/-! ## Tables of bucket chains -/

namespace BucketTable

structure Routed (table : BucketTable) : Prop where
  nonempty : 0 < table.length
  bucket : ∀ (index : Nat) (chain : List Nat), table[index]? = some chain →
    ∀ key ∈ chain, slot table.length (KeyHash.hash key) = index

theorem routed_replicate {count : Nat} (positive : 0 < count) :
    Routed (List.replicate count []) := by
  refine ⟨by simpa using positive, fun index chain found key member => ?_⟩
  rw [List.eq_of_mem_replicate (List.mem_of_getElem? found)] at member
  cases member

theorem mem_flatten_iff {table : BucketTable} {key : Nat} :
    key ∈ table.flatten ↔
      ∃ (index : Nat) (chain : List Nat), table[index]? = some chain ∧ key ∈ chain := by
  simp only [List.mem_flatten, List.mem_iff_getElem? (l := table)]
  constructor
  · rintro ⟨chain, ⟨index, found⟩, member⟩
    exact ⟨index, chain, found, member⟩
  · rintro ⟨index, chain, found, member⟩
    exact ⟨chain, ⟨index, found⟩, member⟩

theorem Routed.mem_chain {table : BucketTable} (routed : table.Routed) {key : Nat} :
    key ∈ table.chain key ↔ key ∈ table.flatten := by
  rw [mem_flatten_iff]
  unfold chain
  constructor
  · intro member
    cases found : table[slot table.length (KeyHash.hash key)]? with
    | none => simp [found] at member
    | some chain => exact ⟨_, chain, found, by simpa [found] using member⟩
  · rintro ⟨index, chain, found, member⟩
    rw [routed.bucket index chain found key member, found]
    exact member

/-- A table that holds the keys of another one and some more, each in its bucket.  No other bucket
changes. -/
structure Takes (table : BucketTable) (keys : List Nat) (larger : BucketTable) : Prop where
  length : larger.length = table.length
  routed : table.Routed → larger.Routed
  perm : larger.flatten.Perm (keys ++ table.flatten)
  others : ∀ index, (∀ key ∈ keys, slot table.length (KeyHash.hash key) ≠ index) →
    larger[index]? = table[index]?

namespace Takes

variable {table larger largest : BucketTable} {keys more : List Nat}

theorem refl (table : BucketTable) : Takes table [] table :=
  ⟨rfl, id, .refl _, fun _ _ => rfl⟩

theorem trans (first : Takes table keys larger) (second : Takes larger more largest) :
    Takes table (more ++ keys) largest where
  length := second.length.trans first.length
  routed := fun routed => second.routed (first.routed routed)
  perm := by
    rw [List.append_assoc]
    exact second.perm.trans (first.perm.append_left more)
  others := fun index elsewhere => by
    rw [second.others index fun key member => ?_, first.others index fun key member => ?_]
    · exact elsewhere key (List.mem_append_right more member)
    · rw [first.length]
      exact elsewhere key (List.mem_append_left keys member)

theorem reorder (taken : Takes table keys larger) (same : keys.Perm more) :
    Takes table more larger where
  length := taken.length
  routed := taken.routed
  perm := taken.perm.trans (same.append_right table.flatten)
  others := fun index elsewhere =>
    taken.others index fun key member => elsewhere key (same.mem_iff.mp member)

end Takes

private theorem flatten_set_perm {table : BucketTable} {index : Nat} {chain : List Nat}
    (found : table[index]? = some chain) (keys : List Nat) :
    (table.set index (keys ++ chain)).flatten.Perm (keys ++ table.flatten) := by
  induction table generalizing index with
  | nil => simp at found
  | cons first rest ih =>
      cases index with
      | zero =>
          obtain rfl : first = chain := by simpa using found
          simp
      | succ index =>
          simp only [List.set_cons_succ, List.flatten_cons]
          refine ((ih (by simpa using found)).append_left first).trans ?_
          rw [← List.append_assoc, ← List.append_assoc]
          exact List.perm_append_comm.append_right rest.flatten

theorem takes_put {table : BucketTable} {index : Nat} {chain keys : List Nat}
    (found : table[index]? = some chain)
    (here : ∀ key ∈ keys, slot table.length (KeyHash.hash key) = index) :
    Takes table keys (table.set index (keys ++ chain)) where
  length := List.length_set
  routed := fun routed => by
    refine ⟨by simpa using routed.nonempty, fun at' held listed key member => ?_⟩
    rw [List.length_set]
    rw [List.getElem?_set] at listed
    split at listed
    · next same =>
        subst same
        split at listed
        · cases listed
          rcases List.mem_append.mp member with added | earlier
          · exact here key added
          · exact routed.bucket index chain found key earlier
        · cases listed
    · exact routed.bucket at' held listed key member
  perm := flatten_set_perm found keys
  others := fun at' elsewhere => by
    cases keys with
    | nil =>
        obtain ⟨below, same⟩ := List.getElem?_eq_some_iff.mp found
        rw [List.nil_append, ← same, List.set_getElem_self]
    | cons key keys =>
        have differ : index ≠ at' := by
          rw [← here key List.mem_cons_self]
          exact elsewhere key List.mem_cons_self
        rw [List.getElem?_set_ne differ]

theorem Routed.takes_push {table : BucketTable} (routed : table.Routed) (key : Nat) :
    Takes table [key] (table.push key) := by
  have inside : slot table.length (KeyHash.hash key) < table.length :=
    Nat.mod_lt _ routed.nonempty
  have found := List.getElem?_eq_getElem inside
  have pushed : table.push key = table.set (slot table.length (KeyHash.hash key))
      ([key] ++ table[slot table.length (KeyHash.hash key)]) := by
    refine List.ext_getElem? fun index => ?_
    rw [BucketTable.push, List.getElem?_modify, List.getElem?_set]
    split
    · next same => rw [← same, found]; rfl
    · exact id_map' _
  rw [pushed]
  exact takes_put found (by simp)

private theorem Routed.takes_pushEach {table : BucketTable} (routed : table.Routed)
    (keys : List Nat) : Takes table keys (keys.foldl BucketTable.push table) := by
  induction keys generalizing table with
  | nil => exact .refl table
  | cons key keys ih =>
      have first := routed.takes_push key
      exact (first.trans (ih (first.routed routed))).reorder List.perm_append_comm

/-! ### Doubling -/

/-- The keys in front of the run and the run make up the chain, and the run goes to one bucket.
There is a run if there is a key. -/
theorem splitRun_spec (count : Nat) (chain : List Nat) :
    (splitRun count chain).1 ++ (splitRun count chain).2 = chain ∧
      ((splitRun count chain).2.Pairwise fun key other =>
        slot count (KeyHash.hash other) = slot count (KeyHash.hash key)) ∧
      ((splitRun count chain).2 = [] → chain = []) := by
  induction chain with
  | nil => simp [splitRun]
  | cons first rest ih =>
      obtain ⟨whole, together, nonempty⟩ := ih
      simp only [splitRun]
      split
      · next alone =>
          obtain ⟨noFront, alike⟩ := alone
          rw [noFront, List.nil_append] at whole
          exact ⟨by rw [List.nil_append, whole], List.pairwise_cons.mpr ⟨alike, together⟩, nofun⟩
      · next apart =>
          refine ⟨by rw [List.cons_append, whole], together, fun noRun => ?_⟩
          rw [noRun, List.append_nil] at whole
          rw [noRun, whole, nonempty noRun] at apart
          exact absurd ⟨rfl, nofun⟩ apart

private theorem Routed.takes_spread {table : BucketTable} (routed : table.Routed) {chain : List Nat}
    (free : ∀ key ∈ chain, table[slot table.length (KeyHash.hash key)]? = some []) :
    Takes table chain (table.spread chain) := by
  obtain ⟨whole, together, nonempty⟩ := splitRun_spec table.length chain
  unfold spread
  split
  · next front same =>
      rw [nonempty (by rw [same])]
      exact .refl table
  · next front key run same =>
      rw [same] at whole together
      have placed : Takes table (key :: run)
          (table.set (slot table.length (KeyHash.hash key)) (key :: run)) := by
        have here := free key (by rw [← whole]; simp)
        have alike := (List.pairwise_cons.mp together).1
        simpa using takes_put here (List.forall_mem_cons.mpr ⟨rfl, alike⟩)
      have pushed := (placed.routed routed).takes_pushEach front
      have taken := placed.trans pushed
      rwa [whole] at taken

private theorem Routed.takes_spreadEach {table : BucketTable} (routed : table.Routed) {count : Nat}
    (chains : List (List Nat)) (start : Nat)
    (length : table.length = 2 * count)
    (bucket : ∀ (index : Nat) (chain : List Nat), chains[index]? = some chain →
      ∀ key ∈ chain, slot count (KeyHash.hash key) = start + index)
    (free : ∀ index < 2 * count, start ≤ index % count → table[index]? = some []) :
    Takes table chains.flatten (chains.foldl spread table) := by
  induction chains generalizing table start with
  | nil => exact .refl table
  | cons chain chains ih =>
      have folded : ∀ key ∈ chain,
          slot table.length (KeyHash.hash key) % count = start := fun key member => by
        rw [length]
        exact (Nat.mod_mul_left_mod _ _ _).trans (bucket 0 chain rfl key member)
      have first : Takes table chain (table.spread chain) :=
        routed.takes_spread fun key member =>
          free _ (length ▸ Nat.mod_lt _ routed.nonempty) (Nat.le_of_eq (folded key member).symm)
      have rest : Takes (table.spread chain) chains.flatten
          (chains.foldl spread (table.spread chain)) := by
        refine ih (first.routed routed) (start + 1) (first.length.trans length) ?_ ?_
        · intro index later found key member
          have here := bucket (index + 1) later found key member
          omega
        · intro index below beyond
          rw [first.others index fun key member same => ?_]
          · exact free index below (by omega)
          · rw [← same, folded key member] at beyond
            omega
      exact (first.trans rest).reorder List.perm_append_comm

/-- Doubling keeps each key, once for each time it was there. -/
theorem Routed.takes_grow {table : BucketTable} (routed : table.Routed) :
    Takes (List.replicate (2 * table.length) []) table.flatten table.grow := by
  have nonempty := routed.nonempty
  refine (routed_replicate (by omega)).takes_spreadEach table 0
    List.length_replicate ?_ ?_
  · intro index chain found key member
    rw [Nat.zero_add]
    exact routed.bucket index chain found key member
  · intro index below _
    rw [List.getElem?_replicate, if_pos below]

theorem Routed.grow {table : BucketTable} (routed : table.Routed) : table.grow.Routed := by
  have nonempty := routed.nonempty
  exact routed.takes_grow.routed (routed_replicate (by omega))

theorem Routed.grow_perm {table : BucketTable} (routed : table.Routed) :
    table.grow.flatten.Perm table.flatten := by
  simpa using routed.takes_grow.perm

theorem Routed.length_grow {table : BucketTable} (routed : table.Routed) :
    table.grow.length = 2 * table.length := by
  simpa using routed.takes_grow.length

/-! ### Insertion -/

private theorem Routed.insert (key : Nat) (doublings : Nat) {table : BucketTable}
    (routed : table.Routed) : (table.insert key doublings).Routed := by
  induction doublings generalizing table with
  | zero => exact (routed.takes_push key).routed routed
  | succ doublings ih =>
      unfold BucketTable.insert
      split
      · exact (routed.takes_push key).routed routed
      · exact ih routed.grow

theorem Routed.insert_perm (key : Nat) (doublings : Nat) {table : BucketTable}
    (routed : table.Routed) :
    (table.insert key doublings).flatten.Perm (key :: table.flatten) := by
  induction doublings generalizing table with
  | zero => exact (routed.takes_push key).perm
  | succ doublings ih =>
      unfold BucketTable.insert
      split
      · exact (routed.takes_push key).perm
      · exact (ih routed.grow).trans (routed.grow_perm.cons key)

theorem Routed.mem_insert (key : Nat) (doublings : Nat) {table : BucketTable}
    (routed : table.Routed) {other : Nat} :
    other ∈ (table.insert key doublings).flatten ↔ other = key ∨ other ∈ table.flatten := by
  rw [(routed.insert_perm key doublings).mem_iff, List.mem_cons]

end BucketTable

/-! ## Hashed sets -/

theorem KeyHash.hash_lt (key : Nat) : hash key < 2 ^ 32 := by
  have product : key * 0x9E3779B9 % (1 <<< 32) < 2 ^ 32 := Nat.mod_lt _ (by decide)
  exact Nat.xor_lt_two_pow product (Nat.lt_of_le_of_lt (Nat.shiftRight_le _ _) product)

theorem KeyHash.segment_lt (key : Nat) : segment (hash key) < HashedSet.segmentCount := by
  have folded := hash_lt key
  unfold segment HashedSet.segmentCount
  rw [Nat.shiftRight_eq_div_pow]
  omega

namespace HashedSet

structure Valid (set : HashedSet) : Prop where
  count : set.segments.length = segmentCount
  routed : ∀ (index : Nat) (table : BucketTable), set.segments[index]? = some table → table.Routed
  segment : ∀ (index : Nat) (table : BucketTable), set.segments[index]? = some table →
    ∀ key ∈ table.flatten, KeyHash.segment (KeyHash.hash key) = index

theorem mem_snapshot_iff {set : HashedSet} {key : Nat} :
    key ∈ set.snapshot ↔
      ∃ (index : Nat) (table : BucketTable),
        set.segments[index]? = some table ∧ key ∈ table.flatten := by
  simp only [snapshot, OrderedSet.mem_ofList, List.mem_flatten (L := set.segments.flatten),
    List.mem_flatten (L := set.segments)]
  constructor
  · rintro ⟨chain, ⟨table, listed, inTable⟩, member⟩
    obtain ⟨index, found⟩ := List.mem_iff_getElem?.mp listed
    exact ⟨index, table, found, List.mem_flatten.mpr ⟨chain, inTable, member⟩⟩
  · rintro ⟨index, table, found, member⟩
    obtain ⟨chain, inTable, member⟩ := List.mem_flatten.mp member
    exact ⟨chain, ⟨table, List.mem_of_getElem? found, inTable⟩, member⟩

theorem Valid.mem_snapshot {set : HashedSet} (valid : set.Valid) {key : Nat} :
    key ∈ set.snapshot ↔ set.contains key = true := by
  have inside : KeyHash.segment (KeyHash.hash key) < set.segments.length := by
    rw [valid.count]
    exact KeyHash.segment_lt key
  have found := List.getElem?_eq_getElem inside
  simp only [contains, table, List.contains_iff_mem, found, Option.getD_some,
    (valid.routed _ _ found).mem_chain, mem_snapshot_iff]
  constructor
  · rintro ⟨index, table, held, member⟩
    have here := valid.segment index table held key member
    subst here
    rw [found] at held
    cases held
    exact member
  · intro member
    exact ⟨_, _, found, member⟩

theorem valid_empty : empty.Valid := by
  refine ⟨rfl, ?_, ?_⟩
  · intro index table found
    rw [List.eq_of_mem_replicate (List.mem_of_getElem? found)]
    exact BucketTable.routed_replicate (by decide)
  · intro index table found key member
    rw [List.eq_of_mem_replicate (List.mem_of_getElem? found)] at member
    exact absurd member (by decide +revert)

theorem Valid.add {set : HashedSet} (valid : set.Valid) (key : Nat) : (set.add key).2.Valid := by
  unfold HashedSet.add
  split
  · exact valid
  · refine ⟨?_, ?_, ?_⟩
    · simpa using valid.count
    · intro index table found
      simp only [List.getElem?_modify] at found
      obtain ⟨old, held, rfl⟩ := Option.map_eq_some_iff.mp found
      split
      · exact (valid.routed index old held).insert key hashBits
      · exact valid.routed index old held
    · intro index table found other member
      simp only [List.getElem?_modify] at found
      obtain ⟨old, held, rfl⟩ := Option.map_eq_some_iff.mp found
      split at member
      · next here =>
          have routed := valid.routed index old held
          rcases (routed.mem_insert key hashBits).mp member with rfl | earlier
          · exact here
          · exact valid.segment index old held other earlier
      · exact valid.segment index old held other member

theorem Valid.mem_add {set : HashedSet} (valid : set.Valid) {key other : Nat} :
    other ∈ (set.add key).2.snapshot ↔ other = key ∨ other ∈ set.snapshot := by
  by_cases known : set.contains key = true
  · simp only [HashedSet.add, known, if_true]
    constructor
    · exact .inr
    · rintro (rfl | held)
      · exact valid.mem_snapshot.mpr known
      · exact held
  · rw [HashedSet.add, if_neg known]
    simp only [mem_snapshot_iff, List.getElem?_modify]
    constructor
    · rintro ⟨index, table, found, member⟩
      obtain ⟨old, held, rfl⟩ := Option.map_eq_some_iff.mp found
      split at member
      · rcases ((valid.routed index old held).mem_insert key hashBits).mp member with same | earlier
        · exact .inl same
        · exact .inr ⟨index, old, held, earlier⟩
      · exact .inr ⟨index, old, held, member⟩
    · rintro (rfl | ⟨index, table, found, member⟩)
      · have inside : KeyHash.segment (KeyHash.hash other) < set.segments.length := by
          rw [valid.count]
          exact KeyHash.segment_lt other
        have found := List.getElem?_eq_getElem inside
        refine ⟨_, _, by rw [found]; rfl, ?_⟩
        simp only [if_true]
        exact ((valid.routed _ _ found).mem_insert other hashBits).mpr (.inl rfl)
      · refine ⟨index, _, by rw [found]; rfl, ?_⟩
        split
        · exact ((valid.routed index table found).mem_insert key hashBits).mpr (.inr member)
        · exact member

theorem add_fst (set : HashedSet) (key : Nat) : (set.add key).1 = !set.contains key := by
  unfold add
  cases held : set.contains key <;> simp

end HashedSet

/-! ## Either representation -/

namespace KeySet

def Valid : KeySet → Prop
  | .hashed set => set.Valid
  | .bitVector _ => True

theorem valid_empty (kind : SetKind) : (empty kind).Valid := by
  cases kind with
  | hashed => exact HashedSet.valid_empty
  | bitVector => trivial

theorem not_mem_snapshot_empty (kind : SetKind) (key : Nat) : key ∉ (empty kind).snapshot := by
  cases kind with
  | hashed =>
      intro member
      exact absurd (HashedSet.valid_empty.mem_snapshot.mp member) (by
        simp only [HashedSet.contains, HashedSet.table, HashedSet.empty]
        rw [List.getElem?_replicate, if_pos (KeyHash.segment_lt key)]
        simp only [Option.getD_some, BucketTable.chain, BucketTable.empty, List.getElem?_replicate]
        split <;> simp)
  | bitVector =>
      intro member
      exact absurd (BitVectorSet.mem_snapshot.mp member) (by
        simp [BitVectorSet.contains, BitVectorSet.empty, BitVectorSet.withCapacity,
          BitVectorSet.wordBits])

private theorem Valid.add {set : KeySet} (valid : set.Valid) (key : Nat) :
    (set.add key).2.Valid := by
  cases set with
  | hashed set => exact HashedSet.Valid.add valid key
  | bitVector set => trivial

private theorem Valid.mem_add {set : KeySet} (valid : set.Valid) {key other : Nat} :
    other ∈ (set.add key).2.snapshot ↔ other = key ∨ other ∈ set.snapshot := by
  cases set with
  | hashed set => exact HashedSet.Valid.mem_add valid
  | bitVector set =>
      exact BitVectorSet.mem_snapshot.trans
        ((set.contains_add key other).trans (or_congr_right BitVectorSet.mem_snapshot.symm))

private theorem Valid.add_fst {set : KeySet} (valid : set.Valid) (key : Nat) :
    (set.add key).1 = true ↔ key ∉ set.snapshot := by
  cases set with
  | hashed set =>
      show (set.add key).1 = true ↔ key ∉ set.snapshot
      rw [HashedSet.add_fst, HashedSet.Valid.mem_snapshot valid]
      simp
  | bitVector set =>
      show (set.add key).1 = true ↔ key ∉ set.snapshot
      rw [BitVectorSet.add_fst, BitVectorSet.mem_snapshot]
      simp

end KeySet

/-! ## Adding several keys -/

/-- What a growing set has to satisfy for its snapshots to be sets: an invariant that adding a
key keeps, under which exactly that key is added. -/
structure LawfulGrowth (σ : Type) [GrowingSet σ] (valid : σ → Prop) : Prop where
  add : ∀ {set : σ}, valid set → ∀ key, valid (GrowingSet.add set key).2
  mem_add : ∀ {set : σ}, valid set → ∀ {key other : Nat},
    other ∈ KeyView.snapshot (GrowingSet.add set key).2 ↔
      other = key ∨ other ∈ KeyView.snapshot set
  add_fst : ∀ {set : σ}, valid set → ∀ key,
    (GrowingSet.add set key).1 = true ↔ key ∉ KeyView.snapshot set

private theorem KeySet.lawful : LawfulGrowth KeySet KeySet.Valid :=
  ⟨fun valid key => valid.add key, fun valid => valid.mem_add, fun valid key => valid.add_fst key⟩

theorem BitVectorSet.lawful : LawfulGrowth BitVectorSet fun _ => True where
  add _ _ := trivial
  mem_add {set} _ {key} {other} :=
    mem_snapshot.trans ((set.contains_add key other).trans (or_congr_right mem_snapshot.symm))
  add_fst {set} _ key := by
    show (set.add key).1 = true ↔ key ∉ set.snapshot
    rw [add_fst, mem_snapshot]
    simp

namespace LawfulGrowth

variable {σ : Type} [GrowingSet σ] {valid : σ → Prop}

theorem addEach (lawful : LawfulGrowth σ valid) (keys : List Nat) (set : σ) (start : valid set) :
    valid (ObjectFlow.addEach keys set).2 ∧
      (∀ key, key ∈ KeyView.snapshot (ObjectFlow.addEach keys set).2 ↔
        key ∈ keys ∨ key ∈ KeyView.snapshot set) ∧
      ∀ key, key ∈ (ObjectFlow.addEach keys set).1 ↔
        key ∈ keys ∧ key ∉ KeyView.snapshot set := by
  induction keys generalizing set with
  | nil => simp [ObjectFlow.addEach, start]
  | cons first rest ih =>
      obtain ⟨stays, grown, new⟩ := ih _ (lawful.add start first)
      have isNew := lawful.add_fst start first
      simp only [ObjectFlow.addEach]
      refine ⟨stays, fun key => ?_, fun key => ?_⟩
      · rw [grown, lawful.mem_add start, List.mem_cons, or_left_comm, or_assoc]
      · have tail := new key
        rw [lawful.mem_add start] at tail
        split
        · next added =>
            have absent := isNew.mp added
            rw [List.mem_cons, List.mem_cons, tail]
            by_cases same : key = first
            · simp [same, absent]
            · simp [same]
        · next known =>
            have held : first ∈ KeyView.snapshot set :=
              Decidable.not_not.mp fun absent => known (isNew.mpr absent)
            rw [tail, List.mem_cons]
            by_cases same : key = first
            · simp [same, held]
            · simp [same]

end LawfulGrowth

theorem KeySet.Valid.addAll {set : KeySet} (valid : set.Valid) (keys : IdSet) :
    (ObjectFlow.addAll set keys).2.Valid ∧
      (∀ key, key ∈ (ObjectFlow.addAll set keys).2.snapshot ↔ key ∈ keys ∨ key ∈ set.snapshot) ∧
      ∀ key, key ∈ (ObjectFlow.addAll set keys).1 ↔ key ∈ keys ∧ key ∉ set.snapshot := by
  obtain ⟨stays, grown, new⟩ := KeySet.lawful.addEach keys.toList set valid
  refine ⟨stays, grown, fun key => ?_⟩
  show key ∈ OrderedSet.ofList (ObjectFlow.addEach keys.toList set).1 ↔ _
  rw [OrderedSet.mem_ofList]
  exact new key

end ObjectFlow
