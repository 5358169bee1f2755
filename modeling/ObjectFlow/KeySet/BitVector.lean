import ObjectFlow.OrderedSet

/-!
# Bit vectors of keys

A bit vector keeps one bit for each key, in words of 64 bits.  When a key lies
beyond the last word, the vector grows to hold it, and at least to twice its
length.  Sets only grow.
-/

namespace ObjectFlow

structure BitVectorSet where
  words : List (BitVec 64)
  size : Nat
  /-- One more than the largest key, zero while there is none. -/
  upper : Nat
  deriving DecidableEq, Repr

namespace BitVectorSet

def wordBits : Nat := 64

def withCapacity (capacity : Nat) : BitVectorSet :=
  ⟨List.replicate ((capacity + (wordBits - 1)) / wordBits) 0, 0, 0⟩

def empty : BitVectorSet := withCapacity 0

instance : Inhabited BitVectorSet := ⟨empty⟩

def contains (set : BitVectorSet) (key : Nat) : Bool :=
  ((set.words[key / wordBits]?).map fun word => word.getLsbD (key % wordBits)).getD false

def reserve (words : List (BitVec 64)) (index : Nat) : List (BitVec 64) :=
  if index < words.length then words
  else words ++ List.replicate (max (index + 1) (2 * words.length) - words.length) 0

def add (set : BitVectorSet) (key : Nat) : Bool × BitVectorSet :=
  if set.contains key then
    (false, set)
  else
    (true,
      { words := (reserve set.words (key / wordBits)).modify (key / wordBits) fun word =>
          word ||| BitVec.twoPow 64 (key % wordBits)
        size := set.size + 1
        upper := max set.upper (key + 1) })

def max? (set : BitVectorSet) : Option Nat :=
  match set.upper with
  | 0 => none
  | largest + 1 => some largest

def wordKeys (index : Nat) (word : BitVec 64) : List Nat :=
  if word = 0 then []
  else ((List.range wordBits).filter fun bit => word.getLsbD bit).map (index * wordBits + ·)

def snapshot (set : BitVectorSet) : IdSet :=
  OrderedSet.ofList (set.words.zipIdx.flatMap fun (word, index) => wordKeys index word)

end BitVectorSet

end ObjectFlow
