import ObjectFlow.OrderedSet

/-!
# Growth of a points-to graph

A `Delta` holds what an evaluation added to a graph: edges from nodes to
objects, call edges and triggered class initializers.  The edges are kept by
node, and only nodes that grew are listed.  Deltas are joined by union and
ordered by inclusion.
-/

namespace ObjectFlow

abbrev NodeId := Nat

abbrev ObjectId := Nat

abbrev CallId := Nat

structure Edge where
  node : NodeId
  object : ObjectId
  deriving DecidableEq, Repr

/-- Sets of objects by node, in ascending order of the nodes.  No set is empty. -/
structure EdgeMap where
  rows : List (NodeId × IdSet)
  ascending : rows.Pairwise fun row later => row.1 < later.1
  filled : ∀ row ∈ rows, row.2.isEmpty = false

namespace EdgeMap

instance : DecidableEq EdgeMap := fun edges other =>
  decidable_of_iff (edges.rows = other.rows)
    ⟨fun same => by cases edges; cases other; cases same; rfl, fun same => by rw [same]⟩

def empty : EdgeMap := ⟨[], .nil, nofun⟩

instance : EmptyCollection EdgeMap := ⟨empty⟩

instance : Inhabited EdgeMap := ⟨empty⟩

def isEmpty (edges : EdgeMap) : Bool := edges.rows.isEmpty

def get (edges : EdgeMap) (node : NodeId) : IdSet := (edges.rows.lookup node).getD ∅

instance : Membership Edge EdgeMap where
  mem edges edge := edge.object ∈ edges.get edge.node

theorem mem_iff {edges : EdgeMap} {edge : Edge} :
    edge ∈ edges ↔ edge.object ∈ edges.get edge.node :=
  Iff.rfl

/-! ## Recording edges -/

def putInto (node : NodeId) (objects : IdSet) : List (NodeId × IdSet) → List (NodeId × IdSet)
  | [] => [(node, objects)]
  | (first, held) :: rest =>
      if node < first then (node, objects) :: (first, held) :: rest
      else if node = first then (first, held.union objects) :: rest
      else (first, held) :: putInto node objects rest

section

variable {node : NodeId} {objects : IdSet}

private theorem of_mem_putInto {row : NodeId × IdSet} :
    ∀ {rows : List (NodeId × IdSet)}, row ∈ putInto node objects rows →
      row ∈ rows ∨ row = (node, objects) ∨ ∃ held, (node, held) ∈ rows ∧
        row = (node, held.union objects)
  | [], member => .inr (.inl (List.mem_singleton.mp member))
  | (first, held) :: rest, member => by
      unfold putInto at member
      split at member
      · rcases List.mem_cons.mp member with rfl | member
        · exact .inr (.inl rfl)
        · exact .inl member
      · split at member
        · next same =>
            subst same
            rcases List.mem_cons.mp member with rfl | member
            · exact .inr (.inr ⟨held, List.mem_cons_self, rfl⟩)
            · exact .inl (List.mem_cons_of_mem _ member)
        · rcases List.mem_cons.mp member with rfl | member
          · exact .inl List.mem_cons_self
          · rcases of_mem_putInto member with earlier | new | ⟨held, listed, same⟩
            · exact .inl (List.mem_cons_of_mem _ earlier)
            · exact .inr (.inl new)
            · exact .inr (.inr ⟨held, List.mem_cons_of_mem _ listed, same⟩)

private theorem ascending_putInto :
    ∀ {rows : List (NodeId × IdSet)}, (rows.Pairwise fun row later => row.1 < later.1) →
      (putInto node objects rows).Pairwise fun row later => row.1 < later.1
  | [], _ => List.pairwise_singleton _ _
  | (first, held) :: rest, sorted => by
      obtain ⟨above, tail⟩ := List.pairwise_cons.mp sorted
      unfold putInto
      split
      · next below =>
          refine List.pairwise_cons.mpr ⟨fun row member => ?_, sorted⟩
          rcases List.mem_cons.mp member with rfl | member
          · exact below
          · exact Nat.lt_trans below (above row member)
      · split
        · exact List.pairwise_cons.mpr ⟨above, tail⟩
        · refine List.pairwise_cons.mpr ⟨fun row member => ?_, ascending_putInto tail⟩
          rcases of_mem_putInto member with earlier | rfl | ⟨inside, listed, rfl⟩
          · exact above row earlier
          · exact Nat.lt_of_le_of_ne (Nat.le_of_not_lt ‹_›) (Ne.symm ‹_›)
          · exact above (node, inside) listed

private theorem filled_putInto {rows : List (NodeId × IdSet)}
    (filled : ∀ row ∈ rows, row.2.isEmpty = false) (some : objects.isEmpty = false) :
    ∀ row ∈ putInto node objects rows, row.2.isEmpty = false := by
  intro row member
  rcases of_mem_putInto member with earlier | rfl | ⟨held, listed, rfl⟩
  · exact filled row earlier
  · exact some
  · refine Bool.eq_false_iff.mpr fun none => Bool.eq_false_iff.mp some ?_
    rw [OrderedSet.isEmpty_iff] at none ⊢
    exact fun key member => none key (OrderedSet.mem_union.mpr (.inr member))

end

def record (edges : EdgeMap) (node : NodeId) (objects : IdSet) : EdgeMap :=
  if none : objects.isEmpty = true then edges
  else
    ⟨putInto node objects edges.rows, ascending_putInto edges.ascending,
      filled_putInto edges.filled (Bool.eq_false_iff.mpr none)⟩

def union (edges other : EdgeMap) : EdgeMap :=
  other.rows.foldl (fun edges row => edges.record row.1 row.2) edges

def restrict (edges : EdgeMap) (keep : NodeId → Bool) : EdgeMap :=
  ⟨edges.rows.filter fun row => keep row.1, edges.ascending.filter _,
    fun row member => edges.filled row (List.mem_filter.mp member).1⟩

def isSubset (edges other : EdgeMap) : Bool :=
  edges.rows.all fun row => (other.rows.lookup row.1).any row.2.isSubset

def size (edges : EdgeMap) : Nat := (edges.rows.map fun row => row.2.size).foldl (· + ·) 0

end EdgeMap

structure Delta where
  edges : EdgeMap
  calls : IdSet
  initializers : IdSet
  deriving DecidableEq

namespace Delta

def empty : Delta := ⟨∅, ∅, ∅⟩

instance : EmptyCollection Delta := ⟨empty⟩

instance : Inhabited Delta := ⟨empty⟩

def isEmpty (delta : Delta) : Bool :=
  delta.edges.isEmpty && delta.calls.isEmpty && delta.initializers.isEmpty

def recordEdges (delta : Delta) (node : NodeId) (objects : IdSet) : Delta :=
  { delta with edges := delta.edges.record node objects }

def recordCall (delta : Delta) (call : CallId) : Delta :=
  { delta with calls := delta.calls.insert call }

def recordInitializer (delta : Delta) (method : Nat) : Delta :=
  { delta with initializers := delta.initializers.insert method }

def ofEdges (node : NodeId) (objects : IdSet) : Delta := recordEdges ∅ node objects

def ofCall (call : CallId) : Delta := recordCall ∅ call

def ofInitializers (methods : List Nat) : Delta := methods.foldl recordInitializer ∅

def join (delta other : Delta) : Delta :=
  ⟨delta.edges.union other.edges, delta.calls.union other.calls,
    delta.initializers.union other.initializers⟩

def objectsOf (delta : Delta) (node : NodeId) : IdSet := delta.edges.get node

def nodes (delta : Delta) : IdSet := OrderedSet.ofList (delta.edges.rows.map Prod.fst)

def edgeCount (delta : Delta) : Nat := delta.edges.size

def isWithin (delta other : Delta) : Bool :=
  delta.calls.isSubset other.calls && delta.initializers.isSubset other.initializers &&
    delta.edges.isSubset other.edges

/-- The order of two deltas by inclusion; neither may include the other. -/
def compare? (delta other : Delta) : Option Ordering :=
  if delta = other then some .eq
  else if delta.isWithin other then some .lt
  else if other.isWithin delta then some .gt
  else none

end Delta

end ObjectFlow
