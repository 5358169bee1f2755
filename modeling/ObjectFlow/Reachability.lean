import ObjectFlow.OrderedSet

/-!
# Reachability in finite graphs

`reachable` collects the vertices that a search meets from some starting
vertices when it goes on from a vertex to its neighbours.
-/

namespace ObjectFlow

def search (neighbours : Nat → List Nat) : (steps : Nat) → List Nat → IdSet → IdSet
  | 0, _, seen => seen
  | _ + 1, [], seen => seen
  | steps + 1, vertex :: stack, seen =>
      if seen.contains vertex then
        search neighbours steps stack seen
      else
        search neighbours steps (neighbours vertex ++ stack) (seen.insert vertex)

/-- The starting vertices and what can be reached from them in a graph of at most `edges` edges. -/
def reachable (edges : Nat) (neighbours : Nat → List Nat) (start : List Nat) : IdSet :=
  search neighbours (start.length + edges) start ∅

end ObjectFlow
