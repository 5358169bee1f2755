import ObjectFlow.OrderedSet

/-!
# Hashed sets of keys

A hashed set has sixteen segments, chosen by the high bits of a key's hash.
A segment is a table of bucket chains, chosen by the low bits.  When a chain
that has to take a new key already holds eight, the table of its segment is
doubled first.  Sets only grow.
-/

namespace ObjectFlow

namespace KeyHash

/-- A multiplicative hash on 32 bits, with the high half folded into the low one. -/
def hash (key : Nat) : Nat :=
  let product := key * 0x9E3779B9 % (1 <<< 32)
  product ^^^ (product >>> 16)

def segment (hash : Nat) : Nat := hash >>> 28

end KeyHash

abbrev BucketTable := List (List Nat)

namespace BucketTable

def initialBuckets : Nat := 4

def chainLimit : Nat := 8

def empty : BucketTable := List.replicate initialBuckets []

def slot (count hash : Nat) : Nat := hash % count

def chain (table : BucketTable) (key : Nat) : List Nat :=
  (table[slot table.length (KeyHash.hash key)]?).getD []

def push (table : BucketTable) (key : Nat) : BucketTable :=
  table.modify (slot table.length (KeyHash.hash key)) (key :: ·)

/-- The longest tail of a chain whose keys all go to one of `count` buckets, and the keys in front
of it. -/
def splitRun (count : Nat) : List Nat → List Nat × List Nat
  | [] => ([], [])
  | key :: rest =>
      let (front, run) := splitRun count rest
      if front = [] ∧
          ∀ next ∈ run, slot count (KeyHash.hash next) = slot count (KeyHash.hash key) then
        ([], key :: run)
      else
        (key :: front, run)

/-- Put a chain of a table of half the size into a table.  The longest tail that goes to one bucket
is put there as it is, over what the bucket holds; the keys in front of it are pushed in turn. -/
def spread (table : BucketTable) (chain : List Nat) : BucketTable :=
  match splitRun table.length chain with
  | (_, []) => table
  | (front, key :: run) =>
      front.foldl push (table.set (slot table.length (KeyHash.hash key)) (key :: run))

/-- Twice as many buckets.  The keys of a bucket go to it or to its counterpart in the new half. -/
def grow (table : BucketTable) : BucketTable :=
  table.foldl spread (List.replicate (2 * table.length) [])

/-- Put a new key into its chain, after doubling the table while the chain is too long, at most
`doublings` times. -/
def insert (key : Nat) : (doublings : Nat) → BucketTable → BucketTable
  | 0, table => table.push key
  | doublings + 1, table =>
      if (table.chain key).length < chainLimit then table.push key
      else insert key doublings table.grow

end BucketTable

structure HashedSet where
  segments : List BucketTable
  size : Nat
  upper : Nat
  deriving DecidableEq, Repr

namespace HashedSet

def segmentCount : Nat := 16

/-- As many doublings as a hash has bits separate any two hashes. -/
def hashBits : Nat := 32

def empty : HashedSet := ⟨List.replicate segmentCount BucketTable.empty, 0, 0⟩

instance : Inhabited HashedSet := ⟨empty⟩

def table (set : HashedSet) (key : Nat) : BucketTable :=
  (set.segments[KeyHash.segment (KeyHash.hash key)]?).getD []

def contains (set : HashedSet) (key : Nat) : Bool :=
  ((set.table key).chain key).contains key

def add (set : HashedSet) (key : Nat) : Bool × HashedSet :=
  if set.contains key then
    (false, set)
  else
    (true,
      { segments :=
          set.segments.modify (KeyHash.segment (KeyHash.hash key)) (BucketTable.insert key hashBits)
        size := set.size + 1
        upper := max set.upper (key + 1) })

def max? (set : HashedSet) : Option Nat :=
  match set.upper with
  | 0 => none
  | largest + 1 => some largest

def snapshot (set : HashedSet) : IdSet :=
  OrderedSet.ofList set.segments.flatten.flatten

end HashedSet

end ObjectFlow
