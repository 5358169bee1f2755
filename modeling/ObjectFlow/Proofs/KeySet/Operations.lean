import Mathlib.Data.Finset.Sort
import Mathlib.Data.Nat.ModEq
import ObjectFlow.Proofs.KeySet.Membership

/-!
# Growing sets answer as finite sets

Any sequence of operations on 32-bit keys is run on a growing set and on a
finite set of numbers.  A growing set `Represents` a finite one if its snapshot,
its counter and its largest key are those of the finite set; every operation
keeps that and gives the same answer on both sides, so the two
representations cannot be told apart.

A hashed set moreover keeps every key once.  Doubling a table moves all keys of
a chain to two buckets, and an insertion doubles exactly while the chain of its
key is full: on 32 bits the hash is injective, so the bound on the number of
doublings is never reached.
-/

namespace ObjectFlow

/-! ## Operations and their meaning -/

namespace KeySet

inductive Operation where
  | add (key : UInt32)
  | addAll (keys : List UInt32)
  | contains (key : UInt32)
  | size
  | isEmpty
  | max
  | snapshot
  deriving DecidableEq, Repr

inductive Answer where
  | flag (value : Bool)
  | count (value : Nat)
  | largest (value : Option Nat)
  | keys (listed : List Nat)
  deriving DecidableEq, Repr

def Operation.apply {σ : Type} [GrowingSet σ] (set : σ) : Operation → Answer × σ
  | .add key =>
      let (new, grown) := GrowingSet.add set key.toNat
      (.flag new, grown)
  | .addAll keys =>
      let (new, grown) := ObjectFlow.addAll set (OrderedSet.ofList (keys.map UInt32.toNat))
      (.keys new.toList, grown)
  | .contains key => (.flag (KeyView.contains set key.toNat), set)
  | .size => (.count (KeyView.size set), set)
  | .isEmpty => (.flag (KeyView.size set == 0), set)
  | .max => (.largest (KeyView.max? set), set)
  | .snapshot => (.keys (KeyView.snapshot set).toList, set)

def largest? (keys : Finset Nat) : Option Nat :=
  if nonempty : keys.Nonempty then some (keys.max' nonempty) else none

/-- The answer of a finite set, and the set after it. -/
def Operation.meaning (keys : Finset Nat) : Operation → Answer × Finset Nat
  | .add key => (.flag (key.toNat ∉ keys), insert key.toNat keys)
  | .addAll added =>
      let added := (added.map UInt32.toNat).toFinset
      (.keys (added \ keys).sort, added ∪ keys)
  | .contains key => (.flag (key.toNat ∈ keys), keys)
  | .size => (.count keys.card, keys)
  | .isEmpty => (.flag (keys = ∅), keys)
  | .max => (.largest (largest? keys), keys)
  | .snapshot => (.keys keys.sort, keys)

def Operation.run {τ : Type} (step : τ → Operation → Answer × τ) :
    List Operation → τ → List Answer × τ
  | [], state => ([], state)
  | operation :: rest, state =>
      let (answer, next) := step state operation
      let (answers, last) := run step rest next
      (answer :: answers, last)

theorem largest?_insert (key : Nat) (keys : Finset Nat) :
    largest? (insert key keys) =
      some (match largest? keys with
        | none => key
        | some largest => Max.max key largest) := by
  unfold largest?
  rw [dif_pos (Finset.insert_nonempty key keys)]
  by_cases nonempty : keys.Nonempty
  · rw [dif_pos nonempty, Finset.max'_insert key keys nonempty]
  · rw [dif_neg nonempty]
    obtain rfl := Finset.not_nonempty_iff_eq_empty.mp nonempty
    rfl

private theorem toList_eq_sort {set : IdSet} {keys : Finset Nat}
    (same : ∀ key, key ∈ set ↔ key ∈ keys) : set.toList = keys.sort := by
  have ascending : set.toList.Pairwise (· < ·) :=
    set.ascending.imp fun below => Nat.compare_eq_lt.mp below
  refine ascending.eq_of_mem_iff keys.sortedLT_sort.pairwise fun key => ?_
  rw [Finset.mem_sort]
  exact same key

end KeySet

open KeySet (Operation)

/-! ## Refinement -/

structure LawfulCounters (σ : Type) [GrowingSet σ] (valid : σ → Prop) : Prop
    extends LawfulGrowth σ valid where
  contains : ∀ {set : σ}, valid set → ∀ key,
    KeyView.contains set key = true ↔ key ∈ KeyView.snapshot set
  add_known : ∀ {set : σ} {key : Nat}, valid set → key ∈ KeyView.snapshot set →
    (GrowingSet.add set key).2 = set
  size_add : ∀ {set : σ} {key : Nat}, valid set → key ∉ KeyView.snapshot set →
    KeyView.size (GrowingSet.add set key).2 = KeyView.size set + 1
  max?_add : ∀ {set : σ} {key : Nat}, valid set → key ∉ KeyView.snapshot set →
    KeyView.max? (GrowingSet.add set key).2 =
      some (match KeyView.max? set with
        | none => key
        | some largest => max key largest)

structure Represents {σ : Type} [GrowingSet σ] (valid : σ → Prop) (set : σ) (keys : Finset Nat) :
    Prop where
  valid : valid set
  mem : ∀ key, key ∈ KeyView.snapshot set ↔ key ∈ keys
  size : KeyView.size set = keys.card
  max? : KeyView.max? set = KeySet.largest? keys

namespace Represents

variable {σ : Type} [GrowingSet σ] {valid : σ → Prop} {set : σ} {keys : Finset Nat}

theorem add (represents : Represents valid set keys) (lawful : LawfulCounters σ valid) (key : Nat) :
    Represents valid (GrowingSet.add set key).2 (insert key keys) := by
  by_cases known : key ∈ KeyView.snapshot set
  · rw [lawful.add_known represents.valid known,
      Finset.insert_eq_of_mem ((represents.mem key).mp known)]
    exact represents
  · have absent : key ∉ keys := fun member => known ((represents.mem key).mpr member)
    refine ⟨lawful.add represents.valid key, fun other => ?_, ?_, ?_⟩
    · rw [lawful.mem_add represents.valid, represents.mem other, Finset.mem_insert]
    · rw [lawful.size_add represents.valid known, represents.size,
        Finset.card_insert_of_notMem absent]
    · rw [lawful.max?_add represents.valid known, represents.max?, KeySet.largest?_insert]

private theorem addEach (lawful : LawfulCounters σ valid) (added : List Nat) {set : σ}
    {keys : Finset Nat} (represents : Represents valid set keys) :
    Represents valid (ObjectFlow.addEach added set).2 (added.toFinset ∪ keys) := by
  induction added generalizing set keys with
  | nil => simpa [ObjectFlow.addEach] using represents
  | cons first rest ih =>
      have grown := ih (represents.add lawful first)
      rw [Finset.union_insert, ← Finset.insert_union, ← List.toFinset_cons] at grown
      exact grown

private theorem apply (represents : Represents valid set keys) (lawful : LawfulCounters σ valid)
    (operation : Operation) :
    (operation.apply set).1 = (operation.meaning keys).1 ∧
      Represents valid (operation.apply set).2 (operation.meaning keys).2 := by
  cases operation with
  | add key =>
      refine ⟨?_, represents.add lawful key.toNat⟩
      have new := lawful.add_fst represents.valid key.toNat
      rw [represents.mem] at new
      exact congrArg KeySet.Answer.flag (Bool.eq_iff_iff.mpr (new.trans decide_eq_true_iff.symm))
  | addAll added =>
      have listed : (OrderedSet.ofList (added.map UInt32.toNat)).toList.toFinset =
          (added.map UInt32.toNat).toFinset := by
        ext key
        rw [List.mem_toFinset, List.mem_toFinset]
        exact OrderedSet.mem_ofList
      have grown := addEach lawful (OrderedSet.ofList (added.map UInt32.toNat)).toList represents
      rw [listed] at grown
      refine ⟨congrArg KeySet.Answer.keys (KeySet.toList_eq_sort fun key => ?_), grown⟩
      obtain ⟨_, _, new⟩ := lawful.addEach
        (OrderedSet.ofList (added.map UInt32.toNat)).toList set represents.valid
      rw [Finset.mem_sdiff, ← listed, List.mem_toFinset, ← represents.mem key]
      exact OrderedSet.mem_ofList.trans (new key)
  | contains key =>
      have held := (lawful.contains represents.valid key.toNat).trans (represents.mem key.toNat)
      exact ⟨congrArg KeySet.Answer.flag
        (Bool.eq_iff_iff.mpr (held.trans decide_eq_true_iff.symm)), represents⟩
  | size => exact ⟨congrArg KeySet.Answer.count represents.size, represents⟩
  | isEmpty =>
      refine ⟨congrArg KeySet.Answer.flag (Bool.eq_iff_iff.mpr ?_), represents⟩
      rw [beq_iff_eq, represents.size, Finset.card_eq_zero, decide_eq_true_iff]
  | max => exact ⟨congrArg KeySet.Answer.largest represents.max?, represents⟩
  | snapshot =>
      exact ⟨congrArg KeySet.Answer.keys (KeySet.toList_eq_sort represents.mem), represents⟩

private theorem run (lawful : LawfulCounters σ valid) (operations : List Operation) {set : σ}
    {keys : Finset Nat} (represents : Represents valid set keys) :
    (Operation.run Operation.apply operations set).1 =
        (Operation.run Operation.meaning operations keys).1 ∧
      Represents valid (Operation.run Operation.apply operations set).2
        (Operation.run Operation.meaning operations keys).2 := by
  induction operations generalizing set keys with
  | nil => exact ⟨rfl, represents⟩
  | cons operation rest ih =>
      obtain ⟨answer, next⟩ := represents.apply lawful operation
      obtain ⟨answers, last⟩ := ih next
      exact ⟨congrArg₂ List.cons answer answers, last⟩

end Represents

theorem max?_raise (upper key : Nat) :
    (match max upper (key + 1) with
      | 0 => none
      | largest + 1 => some largest) =
    some (match (match upper with
        | 0 => none
        | largest + 1 => some largest : Option Nat) with
      | none => key
      | some largest => max key largest) := by
  cases upper with
  | zero => simp
  | succ largest => rw [Nat.add_max_add_right, max_comm]

/-! ## Hashed sets -/

/-- On 32 bits a product with an odd number can be undone, and so can folding the high half into
the low one. -/
theorem KeyHash.hash_injective {key other : Nat} (small : key < 2 ^ 32) (small' : other < 2 ^ 32)
    (same : hash key = hash other) : key = other := by
  have unfold_fold : ∀ {product : Nat}, product < 2 ^ 32 →
      (product ^^^ product >>> 16) ^^^ ((product ^^^ product >>> 16) >>> 16) = product := by
    intro product below
    rw [Nat.shiftRight_xor_distrib, ← Nat.shiftRight_add,
      Nat.shiftRight_eq_zero product (16 + 16) below, Nat.xor_zero, Nat.xor_assoc, Nat.xor_self,
      Nat.xor_zero]
  have products : key * 0x9E3779B9 % 2 ^ 32 = other * 0x9E3779B9 % 2 ^ 32 := by
    rw [← unfold_fold (Nat.mod_lt (key * 0x9E3779B9) (Nat.two_pow_pos 32)),
      ← unfold_fold (Nat.mod_lt (other * 0x9E3779B9) (Nat.two_pow_pos 32))]
    exact congrArg (fun hash => hash ^^^ hash >>> 16) same
  have congruent : key ≡ other [MOD 2 ^ 32] :=
    Nat.ModEq.cancel_right_of_coprime (by decide) products
  exact congruent.eq_of_lt_of_lt small small'

namespace BucketTable

variable {table : BucketTable}

private theorem Routed.iterate_grow (routed : table.Routed) (doublings : Nat) :
    (BucketTable.grow^[doublings] table).Routed ∧
      (BucketTable.grow^[doublings] table).flatten.Perm table.flatten := by
  induction doublings with
  | zero => exact ⟨routed, .refl _⟩
  | succ doublings ih =>
      rw [Function.iterate_succ_apply']
      exact ⟨ih.1.grow, ih.1.grow_perm.trans ih.2⟩

private theorem Routed.count_chain (routed : table.Routed) (distinct : table.flatten.Nodup)
    {key : Nat} (held : key ∈ table.flatten) : (table.chain key).count key = 1 := by
  have looked : key ∈ table.chain key := routed.mem_chain.mpr held
  refine List.count_eq_one_of_mem ?_ looked
  unfold chain at looked ⊢
  cases found : table[slot table.length (KeyHash.hash key)]? with
  | none => exact List.nodup_nil
  | some bucket => exact (List.nodup_flatten.mp distinct).1 bucket (List.mem_of_getElem? found)

private theorem Routed.length_chain_le (routed : table.Routed) (distinct : table.flatten.Nodup)
    (small : ∀ key ∈ table.flatten, key < 2 ^ 32) (wide : 2 ^ 32 ≤ table.length) (key : Nat) :
    (table.chain key).length ≤ 1 := by
  unfold chain
  cases found : table[slot table.length (KeyHash.hash key)]? with
  | none => simp
  | some bucket =>
      have once := (List.nodup_flatten.mp distinct).1 bucket (List.mem_of_getElem? found)
      have inTable : ∀ other ∈ bucket, other ∈ table.flatten := fun other member =>
        List.mem_flatten.mpr ⟨bucket, List.mem_of_getElem? found, member⟩
      have hashed : ∀ other ∈ bucket, KeyHash.hash other = slot table.length (KeyHash.hash key) :=
        fun other member => by
          rw [← routed.bucket _ bucket found other member]
          exact (Nat.mod_eq_of_lt (lt_of_lt_of_le (KeyHash.hash_lt other) wide)).symm
      match bucket, once, inTable, hashed with
      | [], _, _, _ => simp
      | [_], _, _, _ => simp
      | first :: second :: rest, once, inTable, hashed =>
          have same : first = second := KeyHash.hash_injective
            (small first (inTable first (by simp))) (small second (inTable second (by simp)))
            ((hashed first (by simp)).trans (hashed second (by simp)).symm)
          simp [same] at once

private theorem Routed.insert_eq_push (routed : table.Routed) (distinct : table.flatten.Nodup)
    (small : ∀ key ∈ table.flatten, key < 2 ^ 32) (key doublings : Nat)
    (enough : 2 ^ 32 ≤ 2 ^ doublings * table.length) :
    ∃ count, table.insert key doublings = (BucketTable.grow^[count] table).push key ∧
      ((BucketTable.grow^[count] table).chain key).length < chainLimit ∧
      ∀ fewer < count, chainLimit ≤ ((BucketTable.grow^[fewer] table).chain key).length := by
  induction doublings generalizing table with
  | zero =>
      have short := routed.length_chain_le distinct small (by simpa using enough) key
      exact ⟨0, rfl, lt_of_le_of_lt short (by decide), nofun⟩
  | succ doublings ih =>
      unfold BucketTable.insert
      split
      · next room => exact ⟨0, rfl, room, nofun⟩
      · next full =>
          obtain ⟨count, inserted, room, before⟩ := ih routed.grow
            (routed.grow_perm.nodup_iff.mpr distinct)
            (fun other member => small other (routed.grow_perm.mem_iff.mp member))
            (by rw [routed.length_grow, ← mul_assoc, ← pow_succ]; exact enough)
          refine ⟨count + 1, inserted, room, fun fewer below => ?_⟩
          cases fewer with
          | zero => exact not_lt.mp full
          | succ fewer => exact before fewer (Nat.lt_of_succ_lt_succ below)

end BucketTable

namespace HashedSet

def Distinct (set : HashedSet) : Prop := ∀ table ∈ set.segments, table.flatten.Nodup

private theorem distinct_empty : empty.Distinct := by
  intro table member
  rw [List.eq_of_mem_replicate member]
  exact List.nodup_nil

private theorem Valid.distinct_add {set : HashedSet} (valid : set.Valid) (distinct : set.Distinct)
    (key : Nat) : (set.add key).2.Distinct := by
  unfold HashedSet.add
  split
  · exact distinct
  · next unknown =>
      intro table member
      obtain ⟨index, found⟩ := List.mem_iff_getElem?.mp member
      rw [List.getElem?_modify] at found
      obtain ⟨old, held, rfl⟩ := Option.map_eq_some_iff.mp found
      have once := distinct old (List.mem_of_getElem? held)
      split
      · rw [((valid.routed index old held).insert_perm key hashBits).nodup_iff]
        refine List.nodup_cons.mpr ⟨fun known => unknown ?_, once⟩
        exact valid.mem_snapshot.mp (mem_snapshot_iff.mpr ⟨index, old, held, known⟩)
      · exact once

theorem counters : LawfulCounters HashedSet fun set => set.Valid ∧ set.Distinct where
  add valid key := ⟨valid.1.add key, valid.1.distinct_add valid.2 key⟩
  mem_add valid := valid.1.mem_add
  add_fst {set} valid key := by
    show (set.add key).1 = true ↔ key ∉ set.snapshot
    rw [add_fst, valid.1.mem_snapshot]
    simp
  contains valid _ := valid.1.mem_snapshot.symm
  add_known {set key} valid known := by
    show (set.add key).2 = set
    rw [HashedSet.add, if_pos (valid.1.mem_snapshot.mp known)]
  size_add {set key} valid unknown := by
    show (set.add key).2.size = set.size + 1
    rw [HashedSet.add, if_neg fun known => unknown (valid.1.mem_snapshot.mpr known)]
  max?_add {set key} valid unknown := by
    show (set.add key).2.max? = _
    rw [HashedSet.add, if_neg fun known => unknown (valid.1.mem_snapshot.mpr known)]
    exact max?_raise set.upper key

theorem represents_empty :
    Represents (fun set : HashedSet => set.Valid ∧ set.Distinct) empty ∅ where
  valid := ⟨valid_empty, distinct_empty⟩
  mem key := iff_of_false (KeySet.not_mem_snapshot_empty .hashed key) (Finset.notMem_empty key)
  size := rfl
  max? := rfl

end HashedSet

/-! ## Bit vectors -/

namespace BitVectorSet

theorem counters : LawfulCounters BitVectorSet fun _ => True where
  toLawfulGrowth := lawful
  contains _ _ := mem_snapshot.symm
  add_known {set key} _ known := by
    show (set.add key).2 = set
    rw [BitVectorSet.add, if_pos (mem_snapshot.mp known)]
  size_add {set key} _ unknown := by
    show (set.add key).2.size = set.size + 1
    rw [BitVectorSet.add, if_neg fun known => unknown (mem_snapshot.mpr known)]
  max?_add {set key} _ unknown := by
    show (set.add key).2.max? = _
    rw [BitVectorSet.add, if_neg fun known => unknown (mem_snapshot.mpr known)]
    exact max?_raise set.upper key

theorem represents_withCapacity (capacity : Nat) :
    Represents (fun _ : BitVectorSet => True) (withCapacity capacity) ∅ where
  valid := trivial
  mem key := by
    refine iff_of_false (fun member => ?_) (Finset.notMem_empty key)
    have held := mem_snapshot.mp member
    rw [contains_eq_getD, withCapacity, List.getElem?_replicate] at held
    split at held <;> simp at held
  size := rfl
  max? := rfl

end BitVectorSet

/-! ## Both representations -/

namespace KeySet

def Exact : KeySet → Prop
  | .hashed set => set.Valid ∧ set.Distinct
  | .bitVector _ => True

private theorem counters : LawfulCounters KeySet Exact where
  add {set} valid key := by
    cases set with
    | hashed set => exact HashedSet.counters.add valid key
    | bitVector set => trivial
  mem_add {set} valid key other := by
    cases set with
    | hashed set => exact HashedSet.counters.mem_add valid
    | bitVector set => exact BitVectorSet.counters.mem_add valid
  add_fst {set} valid key := by
    cases set with
    | hashed set => exact HashedSet.counters.add_fst valid key
    | bitVector set => exact BitVectorSet.counters.add_fst valid key
  contains {set} valid key := by
    cases set with
    | hashed set => exact HashedSet.counters.contains valid key
    | bitVector set => exact BitVectorSet.counters.contains valid key
  add_known {set key} valid known := by
    cases set with
    | hashed set => exact congrArg KeySet.hashed (HashedSet.counters.add_known valid known)
    | bitVector set => exact congrArg KeySet.bitVector (BitVectorSet.counters.add_known valid known)
  size_add {set key} valid unknown := by
    cases set with
    | hashed set => exact HashedSet.counters.size_add valid unknown
    | bitVector set => exact BitVectorSet.counters.size_add valid unknown
  max?_add {set key} valid unknown := by
    cases set with
    | hashed set => exact HashedSet.counters.max?_add valid unknown
    | bitVector set => exact BitVectorSet.counters.max?_add valid unknown

private theorem represents_empty (kind : SetKind) : Represents Exact (empty kind) ∅ := by
  cases kind with
  | hashed =>
      obtain ⟨valid, mem, size, max?⟩ := HashedSet.represents_empty
      exact ⟨valid, mem, size, max?⟩
  | bitVector =>
      obtain ⟨valid, mem, size, max?⟩ := BitVectorSet.represents_withCapacity 0
      exact ⟨valid, mem, size, max?⟩

private theorem Operation.meaning_small (operations : List Operation) {keys : Finset Nat}
    (small : ∀ key ∈ keys, key < 2 ^ 32) :
    ∀ key ∈ (run meaning operations keys).2, key < 2 ^ 32 := by
  induction operations generalizing keys with
  | nil => exact small
  | cons operation rest ih =>
      refine @ih (operation.meaning keys).2 fun key member => ?_
      cases operation with
      | add added =>
          rcases Finset.mem_insert.mp member with rfl | earlier
          · exact added.toNat_lt
          · exact small key earlier
      | addAll added =>
          rcases Finset.mem_union.mp member with listed | earlier
          · obtain ⟨given, _, rfl⟩ := List.mem_map.mp (List.mem_toFinset.mp listed)
            exact given.toNat_lt
          · exact small key earlier
      | contains | size | isEmpty | max | snapshot => exact small key member

/-- Hashed sets, bit vectors and bit vectors with room set aside answer every sequence of
operations as the finite set of their keys does.  However often the table of a segment is doubled,
each key stands in it once, in the chain where it is looked up, and an insertion doubles the table
exactly while that chain is full. -/
theorem answers_as_finset (operations : List Operation) (capacity : Nat) :
    (∀ kind, (Operation.run Operation.apply operations (empty kind)).1 =
        (Operation.run Operation.meaning operations ∅).1) ∧
      (Operation.run Operation.apply operations (BitVectorSet.withCapacity capacity)).1 =
        (Operation.run Operation.meaning operations ∅).1 ∧
      ∀ table ∈ (Operation.run Operation.apply operations HashedSet.empty).2.segments,
        (∀ doublings, (BucketTable.grow^[doublings] table).flatten.Perm table.flatten ∧
          ∀ key ∈ table.flatten,
            (BucketTable.grow^[doublings] table).flatten.count key = 1 ∧
            ((BucketTable.grow^[doublings] table).chain key).count key = 1) ∧
        ∀ key, ∃ doublings,
          table.insert key HashedSet.hashBits = (BucketTable.grow^[doublings] table).push key ∧
          ((BucketTable.grow^[doublings] table).chain key).length < BucketTable.chainLimit ∧
          ∀ fewer < doublings,
            BucketTable.chainLimit ≤ ((BucketTable.grow^[fewer] table).chain key).length := by
  refine ⟨fun kind => ((represents_empty kind).run counters operations).1,
    ((BitVectorSet.represents_withCapacity capacity).run BitVectorSet.counters operations).1,
    fun table member => ?_⟩
  obtain ⟨⟨valid, distinct⟩, mem, -, -⟩ :=
    (HashedSet.represents_empty.run HashedSet.counters operations).2
  obtain ⟨index, found⟩ := List.mem_iff_getElem?.mp member
  have routed := valid.routed index table found
  have once := distinct table member
  refine ⟨fun doublings => ?_, fun key => ?_⟩
  · obtain ⟨stays, same⟩ := routed.iterate_grow doublings
    have onceGrown := same.nodup_iff.mpr once
    refine ⟨same, fun key held => ?_⟩
    have heldGrown := same.mem_iff.mpr held
    exact ⟨List.count_eq_one_of_mem onceGrown heldGrown, stays.count_chain onceGrown heldGrown⟩
  · have small : ∀ key ∈ table.flatten, key < 2 ^ 32 := fun key held =>
      Operation.meaning_small operations (by simp) key
        ((mem key).mp (HashedSet.mem_snapshot_iff.mpr ⟨index, table, found, held⟩))
    have enough : 2 ^ 32 ≤ 2 ^ HashedSet.hashBits * table.length :=
      Nat.le_mul_of_pos_right _ routed.nonempty
    exact routed.insert_eq_push once small key HashedSet.hashBits enough

def crowding : List Operation :=
  [.addAll [33, 67, 143, 444, 478, 512, 520, 554], .add 4294967295, .add 33, .contains 512, .size,
    .max]

theorem answers_as_finset_crowding :
    (Operation.run Operation.meaning crowding ∅).1 =
        [.keys [33, 67, 143, 444, 478, 512, 520, 554], .flag true, .flag false, .flag true,
          .count 9, .largest (some 4294967295)] ∧
      ∃ table ∈ (Operation.run Operation.apply crowding HashedSet.empty).2.segments,
        table.length = 8 ∧ 512 ∈ table.flatten ∧
          ((BucketTable.grow^[1] table).chain 512).count 512 = 1 := by
  have agree := answers_as_finset crowding 0
  generalize known : (Operation.run Operation.apply crowding HashedSet.empty).2 = set at *
  have member : set.table 512 ∈ set.segments := by rw [← known]; decide +kernel
  have held : 512 ∈ (set.table 512).flatten := by rw [← known]; decide +kernel
  refine ⟨(agree.1 .hashed).symm.trans (by decide +kernel), _, member,
    by rw [← known]; decide +kernel, held, ?_⟩
  exact (((agree.2.2 _ member).1 1).2 512 held).2

end KeySet

end ObjectFlow
