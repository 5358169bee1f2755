import ObjectFlow.KeySet.BitVector
import ObjectFlow.KeySet.Hashed

/-!
# Growing sets of keys

A `KeySet` is a set of keys in one of two representations, picked by a
`SetKind`.  Both answer alike; they differ in the space they take.
-/

namespace ObjectFlow

inductive SetKind where
  | hashed
  | bitVector
  deriving DecidableEq, Repr

namespace SetKind

def all : List SetKind := [.hashed, .bitVector]

def name : SetKind → String
  | .hashed => "hashed"
  | .bitVector => "bit-vector"

def ofName? (name : String) : Option SetKind := all.find? fun kind => kind.name = name

end SetKind

inductive KeySet where
  | hashed (set : HashedSet)
  | bitVector (set : BitVectorSet)
  deriving DecidableEq, Repr

namespace KeySet

def empty : SetKind → KeySet
  | .hashed => .hashed .empty
  | .bitVector => .bitVector .empty

instance : Inhabited KeySet := ⟨empty .hashed⟩

def contains (set : KeySet) (key : Nat) : Bool :=
  match set with
  | .hashed set => set.contains key
  | .bitVector set => set.contains key

def size : KeySet → Nat
  | .hashed set => set.size
  | .bitVector set => set.size

def isEmpty (set : KeySet) : Bool := set.size == 0

def max? : KeySet → Option Nat
  | .hashed set => set.max?
  | .bitVector set => set.max?

def snapshot : KeySet → IdSet
  | .hashed set => set.snapshot
  | .bitVector set => set.snapshot

def add (set : KeySet) (key : Nat) : Bool × KeySet :=
  match set with
  | .hashed set => let (new, set) := set.add key; (new, .hashed set)
  | .bitVector set => let (new, set) := set.add key; (new, .bitVector set)

def render : KeySet → String
  | .hashed set => s!"Hashed({set.snapshot.render})"
  | .bitVector set => s!"BitVector({set.snapshot.render})"

end KeySet

/-! ## What all representations share -/

class KeyView (σ : Type) where
  contains : σ → Nat → Bool
  size : σ → Nat
  max? : σ → Option Nat
  snapshot : σ → IdSet
  render : σ → String := fun set => (snapshot set).render

class GrowingSet (σ : Type) extends KeyView σ where
  add : σ → Nat → Bool × σ

instance : KeyView IdSet where
  contains := OrderedSet.contains
  size := OrderedSet.size
  max? := OrderedSet.max?
  snapshot := id

instance : GrowingSet HashedSet where
  contains := HashedSet.contains
  size := HashedSet.size
  max? := HashedSet.max?
  snapshot := HashedSet.snapshot
  add := HashedSet.add

instance : GrowingSet BitVectorSet where
  contains := BitVectorSet.contains
  size := BitVectorSet.size
  max? := BitVectorSet.max?
  snapshot := BitVectorSet.snapshot
  add := BitVectorSet.add

instance : GrowingSet KeySet where
  contains := KeySet.contains
  size := KeySet.size
  max? := KeySet.max?
  snapshot := KeySet.snapshot
  render := KeySet.render
  add := KeySet.add

/-- Add keys in turn: the keys that were new, and the set with all of them. -/
def addEach {σ : Type} [GrowingSet σ] : List Nat → σ → List Nat × σ
  | [], set => ([], set)
  | key :: rest, set =>
      let (new, set) := GrowingSet.add set key
      let (others, set) := addEach rest set
      (if new then key :: others else others, set)

def addAll {σ : Type} [GrowingSet σ] (set : σ) (keys : IdSet) : IdSet × σ :=
  let (new, set) := addEach keys.toList set
  (OrderedSet.ofList new, set)

end ObjectFlow
