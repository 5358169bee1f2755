import Mathlib.Order.Interval.Finset.Nat
import ObjectFlow.Proofs.KeySet.Operations

/-!
# Growth of hashed sets

An addition looks through the chain of its key and doubles the table for as long
as the chain is full, without a bound on how often.  It ends because the hash is
a bijection: keys of one chain differ in the bits of their hashes that choose
neither the segment nor the bucket, and with 2 ^ 25 buckets only three of those
are left, too few for eight keys and a ninth.
-/

namespace ObjectFlow

namespace KeyHash

/-- On 32 bits every hash is the hash of exactly one key. -/
theorem bijOn_hash : Set.BijOn hash (Set.Iio (2 ^ 32)) (Set.Iio (2 ^ 32)) :=
  ((Set.finite_Iio _).injOn_iff_bijOn_of_mapsTo fun key _ => hash_lt key).mp
    fun _ small _ small' same => hash_injective small small' same

/-- The bits of a hash between those that choose one of `2 ^ bits` buckets and those that choose
the segment. -/
def middle (bits hash : Nat) : Nat := hash % 2 ^ 28 / 2 ^ bits

variable {bits index slot : Nat} {keys : List Nat}

private theorem middle_lt (within : bits ≤ 28) (hash : Nat) :
    middle bits hash < 2 ^ (28 - bits) := by
  refine Nat.div_lt_of_lt_mul ?_
  rw [← pow_add, Nat.add_sub_cancel' within]
  exact Nat.mod_lt hash (Nat.two_pow_pos 28)

private theorem eq_of_middle (within : bits ≤ 28) {hash other : Nat}
    (sameSegment : segment hash = segment other) (sameMiddle : middle bits hash = middle bits other)
    (sameBucket : hash % 2 ^ bits = other % 2 ^ bits) : hash = other := by
  have low : ∀ hash : Nat, hash % 2 ^ 28 % 2 ^ bits = hash % 2 ^ bits := fun hash =>
    Nat.mod_mod_of_dvd hash (pow_dvd_pow 2 within)
  have sameLow : hash % 2 ^ 28 = other % 2 ^ 28 := by
    rw [← Nat.div_add_mod (hash % 2 ^ 28) (2 ^ bits), ← Nat.div_add_mod (other % 2 ^ 28) (2 ^ bits),
      low, low, sameBucket]
    exact congrArg (2 ^ bits * · + other % 2 ^ bits) sameMiddle
  rw [segment, segment, Nat.shiftRight_eq_div_pow, Nat.shiftRight_eq_div_pow] at sameSegment
  rw [← Nat.div_add_mod hash (2 ^ 28), ← Nat.div_add_mod other (2 ^ 28), sameSegment, sameLow]

private theorem length_le (within : bits ≤ 28) (once : keys.Nodup)
    (small : ∀ key ∈ keys, key < 2 ^ 32) (inSegment : ∀ key ∈ keys, segment (hash key) = index)
    (inBucket : ∀ key ∈ keys, hash key % 2 ^ bits = slot) : keys.length ≤ 2 ^ (28 - bits) := by
  have apart : (keys.map fun key => middle bits (hash key)).Nodup := by
    refine once.map_on fun key member other member' same => ?_
    refine hash_injective (small key member) (small other member') (eq_of_middle within ?_ same ?_)
    · rw [inSegment key member, inSegment other member']
    · rw [inBucket key member, inBucket other member']
  have bounded : (keys.map fun key => middle bits (hash key)) ⊆ List.range (2 ^ (28 - bits)) := by
    intro value member
    obtain ⟨key, _, rfl⟩ := List.mem_map.mp member
    exact List.mem_range.mpr (middle_lt within (hash key))
  simpa using (apart.subperm bounded).length_le

end KeyHash

namespace BucketTable

variable {table : BucketTable} {index bits key : Nat}

/-! ## The loop of an addition -/

/-- What an addition does to the table of its key, and after how many doublings: it finds the key,
or it puts it into a chain with room.  The flag tells whether the key was new. -/
inductive Settles (key : Nat) : (doublings : Nat) → BucketTable → Bool × BucketTable → Prop where
  | found {table : BucketTable} : key ∈ table.chain key → Settles key 0 table (false, table)
  | room {table : BucketTable} : key ∉ table.chain key →
      (table.chain key).length < chainLimit → Settles key 0 table (true, table.push key)
  | full {doublings : Nat} {table : BucketTable} {outcome : Bool × BucketTable} :
      key ∉ table.chain key → chainLimit ≤ (table.chain key).length →
      Settles key doublings table.grow outcome → Settles key (doublings + 1) table outcome

theorem Settles.unique {doublings other : Nat} {outcome outcome' : Bool × BucketTable}
    (settles : Settles key doublings table outcome) (settles' : Settles key other table outcome') :
    other = doublings ∧ outcome' = outcome := by
  induction settles generalizing other with
  | found held =>
      cases settles' with
      | found => exact ⟨rfl, rfl⟩
      | room absent => exact absurd held absent
      | full absent => exact absurd held absent
  | room absent room =>
      cases settles' with
      | found held => exact absurd held absent
      | room => exact ⟨rfl, rfl⟩
      | full _ full => exact absurd room (not_lt.mpr full)
  | full absent full _ ih =>
      cases settles' with
      | found held => exact absurd held absent
      | room _ room => exact absurd room (not_lt.mpr full)
      | full _ _ rest =>
          obtain ⟨rfl, same⟩ := ih rest
          exact ⟨rfl, same⟩

private theorem Settles.insert_eq {doublings bound : Nat} {grown : BucketTable}
    (settles : Settles key doublings table (true, grown)) (within : doublings ≤ bound) :
    table.insert key bound = grown := by
  generalize isOutcome : (true, grown) = outcome at settles
  induction settles generalizing bound with
  | found => cases isOutcome
  | room _ room =>
      cases isOutcome
      cases bound with
      | zero => rfl
      | succ bound => rw [BucketTable.insert, if_pos room]
  | full _ full _ ih =>
      cases bound with
      | zero => exact absurd within (Nat.not_succ_le_zero _)
      | succ bound =>
          rw [BucketTable.insert, if_neg (not_lt.mpr full)]
          exact ih (Nat.le_of_succ_le_succ within) isOutcome

theorem Settles.new_iff {doublings : Nat} {outcome : Bool × BucketTable}
    (settles : Settles key doublings table outcome) (routed : table.Routed) :
    outcome.1 = true ↔ key ∉ table.flatten := by
  induction settles with
  | found held => exact iff_of_false nofun (not_not_intro (routed.mem_chain.mp held))
  | room absent => exact iff_of_true rfl (mt routed.mem_chain.mpr absent)
  | full _ _ _ ih => rw [ih routed.grow, routed.grow_perm.mem_iff]

/-! ## Tables that fit -/

structure Fits (table : BucketTable) (index bits : Nat) : Prop where
  routed : table.Routed
  once : table.flatten.Nodup
  small : ∀ key ∈ table.flatten, key < 2 ^ 32
  segment : ∀ key ∈ table.flatten, KeyHash.segment (KeyHash.hash key) = index
  buckets : table.length = 2 ^ bits

namespace Fits

private theorem empty (index : Nat) : Fits BucketTable.empty index 2 where
  routed := routed_replicate (by decide)
  once := List.nodup_nil
  small := nofun
  segment := nofun
  buckets := rfl

variable (fits : Fits table index bits)

include fits

private theorem grow : Fits table.grow index (bits + 1) where
  routed := fits.routed.grow
  once := fits.routed.grow_perm.nodup_iff.mpr fits.once
  small key member := fits.small key (fits.routed.grow_perm.mem_iff.mp member)
  segment key member := fits.segment key (fits.routed.grow_perm.mem_iff.mp member)
  buckets := by rw [fits.routed.length_grow, fits.buckets, pow_succ']

private theorem push (absent : key ∉ table.flatten) (small : key < 2 ^ 32)
    (segment : KeyHash.segment (KeyHash.hash key) = index) :
    Fits (table.push key) index bits := by
  have takes := fits.routed.takes_push key
  have held : ∀ other, other ∈ (table.push key).flatten ↔ other = key ∨ other ∈ table.flatten :=
    fun other => takes.perm.mem_iff.trans List.mem_cons
  refine ⟨takes.routed fits.routed, ?_, ?_, ?_, takes.length.trans fits.buckets⟩
  · exact takes.perm.nodup_iff.mpr (List.nodup_cons.mpr ⟨absent, fits.once⟩)
  · intro other member
    rcases (held other).mp member with rfl | earlier
    · exact small
    · exact fits.small other earlier
  · intro other member
    rcases (held other).mp member with rfl | earlier
    · exact segment
    · exact fits.segment other earlier

theorem bucket {slot : Nat} {chain : List Nat} (found : table[slot]? = some chain) :
    chain.Nodup ∧ ∀ key ∈ chain, key < 2 ^ 32 ∧ KeyHash.segment (KeyHash.hash key) = index ∧
      KeyHash.hash key % 2 ^ bits = slot := by
  have listed := List.mem_of_getElem? found
  refine ⟨(List.nodup_flatten.mp fits.once).1 chain listed, fun key member => ?_⟩
  have held : key ∈ table.flatten := List.mem_flatten.mpr ⟨chain, listed, member⟩
  refine ⟨fits.small key held, fits.segment key held, ?_⟩
  rw [← fits.buckets]
  exact fits.routed.bucket slot chain found key member

private theorem getElem?_chain (key : Nat) :
    table[KeyHash.hash key % 2 ^ bits]? = some (table.chain key) := by
  have inside : slot table.length (KeyHash.hash key) < table.length :=
    Nat.mod_lt _ fits.routed.nonempty
  rw [chain, ← fits.buckets, show KeyHash.hash key % table.length = slot _ _ from rfl,
    List.getElem?_eq_getElem inside]
  rfl

private theorem bits_lt (absent : key ∉ table.flatten) (small : key < 2 ^ 32)
    (segment : KeyHash.segment (KeyHash.hash key) = index) (within : bits ≤ 28)
    (full : chainLimit ≤ (table.chain key).length) : bits < 25 := by
  obtain ⟨once, chained⟩ := fits.bucket (fits.getElem?_chain key)
  have counted : (key :: table.chain key).length ≤ 2 ^ (28 - bits) := by
    refine KeyHash.length_le within (List.nodup_cons.mpr ⟨?_, once⟩)
      (List.forall_mem_cons.mpr ⟨small, fun other member => (chained other member).1⟩)
      (List.forall_mem_cons.mpr ⟨segment, fun other member => (chained other member).2.1⟩)
      (List.forall_mem_cons.mpr ⟨rfl, fun other member => (chained other member).2.2⟩)
    exact mt fits.routed.mem_chain.mp absent
  have nine : 8 < 2 ^ (28 - bits) := lt_of_le_of_lt full (Nat.lt_of_succ_le counted)
  have apart : 3 < 28 - bits := (Nat.pow_lt_pow_iff_right Nat.one_lt_two).mp nine
  omega

end Fits

/-- The loop ends, and no table is doubled beyond 2 ^ 25 buckets. -/
theorem Fits.settles {table : BucketTable} {bits : Nat} (fits : Fits table index bits)
    (small : key < 2 ^ 32) (segment : KeyHash.segment (KeyHash.hash key) = index)
    (within : bits ≤ 25) :
    ∃ doublings outcome, Settles key doublings table outcome ∧ bits + doublings ≤ 25 ∧
      Fits outcome.2 index (bits + doublings) := by
  by_cases held : key ∈ table.chain key
  · exact ⟨0, _, .found held, within, fits⟩
  have absent : key ∉ table.flatten := mt fits.routed.mem_chain.mpr held
  by_cases full : chainLimit ≤ (table.chain key).length
  · have room := fits.bits_lt absent small segment (by omega) full
    obtain ⟨doublings, outcome, settles, bounded, fitsAfter⟩ :=
      fits.grow.settles small segment (Nat.succ_le_of_lt room)
    have shifted : bits + (doublings + 1) = bits + 1 + doublings := by omega
    exact ⟨doublings + 1, outcome, .full held full settles, shifted ▸ bounded,
      shifted ▸ fitsAfter⟩
  · exact ⟨0, _, .room held (not_le.mp full), within, fits.push absent small segment⟩
termination_by 25 - bits

end BucketTable

namespace HashedSet

open BucketTable (Settles)

variable {set : HashedSet} {key : Nat}

/-! ## Sets -/

structure Bounded (set : HashedSet) : Prop where
  count : set.segments.length = segmentCount
  fits : ∀ (index : Nat) (table : BucketTable), set.segments[index]? = some table →
    ∃ bits, 2 ≤ bits ∧ bits ≤ 25 ∧ table.Fits index bits

private theorem bounded_empty : empty.Bounded where
  count := rfl
  fits index table found := by
    rw [List.eq_of_mem_replicate (List.mem_of_getElem? found)]
    exact ⟨2, by decide, by decide, .empty index⟩

namespace Bounded

variable (bounded : set.Bounded)

include bounded

theorem getElem?_table (key : Nat) :
    set.segments[KeyHash.segment (KeyHash.hash key)]? = some (set.table key) := by
  have inside : KeyHash.segment (KeyHash.hash key) < set.segments.length := by
    rw [bounded.count]
    exact KeyHash.segment_lt key
  rw [table, List.getElem?_eq_getElem inside]
  rfl

private theorem add_eq {doublings : Nat} {outcome : Bool × BucketTable}
    (settles : Settles key doublings (set.table key) outcome) (within : doublings ≤ hashBits) :
    (set.add key).1 = outcome.1 ∧ (set.add key).2.segments =
      set.segments.set (KeyHash.segment (KeyHash.hash key)) outcome.2 := by
  have found := bounded.getElem?_table key
  obtain ⟨bits, _, _, fits⟩ := bounded.fits _ _ found
  have contains_iff : set.contains key = true ↔ key ∈ (set.table key).chain key := by
    rw [contains, List.contains_iff_mem]
  rw [HashedSet.add]
  obtain ⟨new, grown⟩ := outcome
  cases new with
  | true =>
      have absent : key ∉ (set.table key).flatten := (settles.new_iff fits.routed).mp rfl
      rw [if_neg fun known => absent (fits.routed.mem_chain.mp (contains_iff.mp known))]
      refine ⟨rfl, ?_⟩
      rw [List.modify_eq_set_getElem?, found, ← settles.insert_eq within]
      rfl
  | false =>
      have known : key ∈ (set.table key).chain key := by
        rw [fits.routed.mem_chain, ← not_not (a := key ∈ _), ← settles.new_iff fits.routed]
        exact Bool.false_ne_true
      obtain ⟨_, same⟩ := settles.unique (.found known)
      obtain ⟨inside, here⟩ := List.getElem?_eq_some_iff.mp found
      rw [if_pos (contains_iff.mpr known), (Prod.ext_iff.mp same).2.symm, ← here]
      exact ⟨rfl, (List.set_getElem_self inside).symm⟩

theorem add_settles (small : key < 2 ^ 32) :
    ∃ doublings outcome, Settles key doublings (set.table key) outcome ∧
      outcome.2.length = 2 ^ doublings * (set.table key).length ∧ outcome.2.length ≤ 2 ^ 25 ∧
      (set.add key).1 = outcome.1 ∧ (set.add key).2.segments =
        set.segments.set (KeyHash.segment (KeyHash.hash key)) outcome.2 ∧
      ∃ bits, 2 ≤ bits ∧ bits ≤ 25 ∧
        outcome.2.Fits (KeyHash.segment (KeyHash.hash key)) bits := by
  obtain ⟨bits, wide, within, fits⟩ := bounded.fits _ _ (bounded.getElem?_table key)
  obtain ⟨doublings, outcome, settles, most, fitsAfter⟩ := fits.settles small rfl within
  have few : doublings ≤ hashBits := by
    unfold hashBits
    omega
  obtain ⟨answer, segments⟩ := bounded.add_eq settles few
  refine ⟨doublings, outcome, settles, ?_, ?_, answer, segments,
    _, Nat.le_add_right_of_le wide, most, fitsAfter⟩
  · rw [fitsAfter.buckets, fits.buckets, pow_add, mul_comm]
  · rw [fitsAfter.buckets]
    exact Nat.pow_le_pow_right Nat.two_pos most

private theorem add (small : key < 2 ^ 32) : (set.add key).2.Bounded := by
  obtain ⟨_, outcome, _, _, _, _, segments, fitsAfter⟩ := bounded.add_settles small
  constructor
  · rw [segments, List.length_set, bounded.count]
  · intro index table found
    rw [segments, List.getElem?_set] at found
    split at found
    · next here =>
        subst here
        split at found
        · cases found
          exact fitsAfter
        · cases found
    · exact bounded.fits index table found

end Bounded

/-! ## Additions end -/

def filled (added : List UInt32) : HashedSet := (addEach (added.map UInt32.toNat) empty).2

private theorem bounded_filled (added : List UInt32) : (filled added).Bounded := by
  have each : ∀ set : HashedSet, set.Bounded →
      (addEach (added.map UInt32.toNat) set).2.Bounded := by
    induction added with
    | nil => exact fun _ bounded => bounded
    | cons key added ih => exact fun set bounded => ih _ (bounded.add key.toNat_lt)
  exact each empty bounded_empty

/-- Additions always end and tables stay bounded.  The hash is a bijection on 32 bits, so after any
additions the keys of one bucket of a table with `2 ^ bits` buckets have different hashes that agree
in the segment and in the low bits, and `bits` is at most 25.  Then the loop of a further addition
ends after some number of doublings, whatever its key; no other outcome is possible, it is the one
that the addition has, and the table has at most 2 ^ 25 buckets still. -/
theorem additions_end (added : List UInt32) :
    Set.BijOn KeyHash.hash (Set.Iio (2 ^ 32)) (Set.Iio (2 ^ 32)) ∧
    (∀ index table, (filled added).segments[index]? = some table →
      ∃ bits, 2 ≤ bits ∧ bits ≤ 25 ∧ table.length = 2 ^ bits ∧
        ∀ slot chain, table[slot]? = some chain →
          (chain.Pairwise fun key other => KeyHash.hash key ≠ KeyHash.hash other) ∧
          ∀ key ∈ chain, KeyHash.segment (KeyHash.hash key) = index ∧
            KeyHash.hash key % 2 ^ bits = slot) ∧
    ∀ key : UInt32, ∃ doublings new grown,
      Settles key.toNat doublings ((filled added).table key.toNat) (new, grown) ∧
      (∀ other outcome, Settles key.toNat other ((filled added).table key.toNat) outcome →
        other = doublings ∧ outcome = (new, grown)) ∧
      grown.length = 2 ^ doublings * ((filled added).table key.toNat).length ∧
      grown.length ≤ 2 ^ 25 ∧
      ((filled added).add key.toNat).1 = new ∧
      ((filled added).add key.toNat).2.segments =
        (filled added).segments.set (KeyHash.segment (KeyHash.hash key.toNat)) grown := by
  have bounded := bounded_filled added
  refine ⟨KeyHash.bijOn_hash, fun index table found => ?_, fun key => ?_⟩
  · obtain ⟨bits, wide, within, fits⟩ := bounded.fits index table found
    refine ⟨bits, wide, within, fits.buckets, fun slot chain listed => ?_⟩
    obtain ⟨once, chained⟩ := fits.bucket listed
    refine ⟨once.imp_of_mem fun member member' different same => different ?_,
      fun key member => (chained key member).2⟩
    exact KeyHash.hash_injective (chained _ member).1 (chained _ member').1 same
  · obtain ⟨doublings, ⟨new, grown⟩, settles, length, most, answer, segments, _⟩ :=
      bounded.add_settles key.toNat_lt
    exact ⟨doublings, new, grown, settles, fun _ _ other => settles.unique other, length, most,
      answer, segments⟩

def crowded : List UInt32 := [33, 67, 143, 444, 478, 512, 520, 554]

theorem additions_end_crowded :
    ((filled crowded).table (4294967295 : UInt32).toNat).chain (4294967295 : UInt32).toNat =
        [554, 520, 512, 478, 444, 143, 67, 33] ∧
      ∃ grown, Settles (4294967295 : UInt32).toNat 1
        ((filled crowded).table (4294967295 : UInt32).toNat) (true, grown) ∧
        grown.length = 8 := by
  obtain ⟨-, -, loops⟩ := additions_end crowded
  obtain ⟨doublings, new, grown, settles, -, length, -, answer, segments⟩ := loops 4294967295
  have isNew : ((filled crowded).add (4294967295 : UInt32).toNat).1 = true := by decide +kernel
  have before : ((filled crowded).table (4294967295 : UInt32).toNat).length = 4 := by
    decide +kernel
  have after : (((filled crowded).add (4294967295 : UInt32).toNat).2.table
      (4294967295 : UInt32).toNat).length = 8 := by decide +kernel
  have inside : KeyHash.segment (KeyHash.hash (4294967295 : UInt32).toNat) <
      (filled crowded).segments.length := by decide +kernel
  rw [table, segments, List.getElem?_set_self inside, Option.getD_some] at after
  obtain rfl : new = true := answer.symm.trans isNew
  obtain rfl : doublings = 1 := by
    rw [after, before] at length
    exact Nat.pow_right_injective (le_refl 2) (by omega : 2 ^ doublings = 2 ^ 1)
  exact ⟨by decide +kernel, grown, settles, after⟩

end HashedSet

end ObjectFlow
