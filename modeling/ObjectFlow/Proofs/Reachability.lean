import Mathlib.Algebra.BigOperators.Fin
import Mathlib.Algebra.Order.BigOperators.Group.Finset
import Mathlib.Data.Finset.Range
import Mathlib.Logic.Relation
import ObjectFlow.Reachability

/-!
# What a search meets

A search goes on from a vertex it has not seen and takes at most a counted
number of vertices off its stack.  With as many steps as there are edges to
follow, it meets exactly the vertices that can be reached.
-/

namespace ObjectFlow

section Search

variable {neighbours : Nat → List Nat} {size : Nat}

private theorem search_sound {steps : Nat} {stack : List Nat} {seen : IdSet} {target : Nat}
    (met : target ∈ search neighbours steps stack seen) :
    target ∈ seen ∨ ∃ source ∈ stack,
      Relation.ReflTransGen (fun vertex next => next ∈ neighbours vertex) source target := by
  fun_induction search neighbours steps stack seen with
  | case1 stack seen => exact .inl met
  | case2 seen steps => exact .inl met
  | case3 steps vertex stack seen known ih =>
      obtain known | ⟨source, below, path⟩ := ih met
      · exact .inl known
      · exact .inr ⟨source, .tail _ below, path⟩
  | case4 steps vertex stack seen fresh ih =>
      obtain known | ⟨source, below, path⟩ := ih met
      · obtain rfl | known := OrderedSet.mem_insert.mp known
        · exact .inr ⟨target, .head _, .refl⟩
        · exact .inl known
      · obtain isNext | below := List.mem_append.mp below
        · exact .inr ⟨vertex, .head _, .head isNext path⟩
        · exact .inr ⟨source, .tail _ below, path⟩

def unseenEdges (neighbours : Nat → List Nat) (size : Nat) (seen : IdSet) : Nat :=
  ∑ vertex ∈ Finset.range size with vertex ∉ seen, (neighbours vertex).length

theorem unseenEdges_insert (outside : ∀ vertex, size ≤ vertex → neighbours vertex = [])
    {seen : IdSet} {vertex : Nat} (fresh : vertex ∉ seen) :
    unseenEdges neighbours size seen =
      (neighbours vertex).length + unseenEdges neighbours size (seen.insert vertex) := by
  unfold unseenEdges
  have rest : ({other ∈ Finset.range size | other ∉ seen.insert vertex} : Finset Nat) =
      {other ∈ Finset.range size | other ∉ seen}.erase vertex := by
    ext other
    simp only [Finset.mem_filter, Finset.mem_erase, OrderedSet.mem_insert]
    tauto
  rw [rest]
  by_cases inside : vertex < size
  · exact (Finset.add_sum_erase _ _ (by simp [inside, fresh])).symm
  · rw [Finset.erase_eq_of_notMem (by simp [inside]), outside vertex (Nat.le_of_not_lt inside)]
    simp

private theorem search_closed (outside : ∀ vertex, size ≤ vertex → neighbours vertex = [])
    {steps : Nat} {stack : List Nat} {seen : IdSet}
    (enough : stack.length + unseenEdges neighbours size seen ≤ steps)
    (covered : ∀ vertex ∈ seen, ∀ next ∈ neighbours vertex, next ∈ seen ∨ next ∈ stack) :
    (∀ vertex ∈ stack, vertex ∈ search neighbours steps stack seen) ∧
      (∀ vertex ∈ seen, vertex ∈ search neighbours steps stack seen) ∧
      ∀ vertex ∈ search neighbours steps stack seen, ∀ next ∈ neighbours vertex,
        next ∈ search neighbours steps stack seen := by
  fun_induction search neighbours steps stack seen with
  | case1 stack seen =>
      obtain rfl : stack = [] := List.length_eq_zero_iff.mp (by omega)
      exact ⟨by simp, by simp, fun vertex member next isNext => by
        simpa using covered vertex member next isNext⟩
  | case2 seen steps =>
      exact ⟨by simp, by simp, fun vertex member next isNext => by
        simpa using covered vertex member next isNext⟩
  | case3 steps vertex stack seen known ih =>
      have known : vertex ∈ seen := by simpa using known
      obtain ⟨below, kept, closed⟩ := ih (by simp at enough; omega) (by grind)
      exact ⟨by grind, kept, closed⟩
  | case4 steps vertex stack seen fresh ih =>
      have fresh : vertex ∉ seen := by simpa using fresh
      -- What comes onto the stack is no longer unseen, so that the sum of both goes down by one.
      have count := unseenEdges_insert outside fresh
      obtain ⟨below, kept, closed⟩ := ih (by simp at enough ⊢; omega)
        (by grind [OrderedSet.mem_insert])
      exact ⟨by grind [OrderedSet.mem_insert], fun other member => kept other (by simp [member]),
        closed⟩

/-- A search with as many steps as there are edges meets all that can be reached. -/
theorem mem_reachable (outside : ∀ vertex, size ≤ vertex → neighbours vertex = []) {edges : Nat}
    (enough : ∑ vertex ∈ Finset.range size, (neighbours vertex).length ≤ edges)
    {start : List Nat} {source target : Nat} (starts : source ∈ start)
    (path : Relation.ReflTransGen (fun vertex next => next ∈ neighbours vertex) source target) :
    target ∈ reachable edges neighbours start := by
  have enough : start.length + unseenEdges neighbours size ∅ ≤ start.length + edges := by
    simpa [unseenEdges] using enough
  obtain ⟨below, _, closed⟩ := search_closed outside enough (by simp)
  induction path with
  | refl => exact below source starts
  | tail _ isNext ih => exact closed _ ih _ isNext

theorem mem_reachable_iff (outside : ∀ vertex, size ≤ vertex → neighbours vertex = []) {edges : Nat}
    (enough : ∑ vertex ∈ Finset.range size, (neighbours vertex).length ≤ edges)
    {start : List Nat} {target : Nat} :
    target ∈ reachable edges neighbours start ↔ ∃ source ∈ start,
      Relation.ReflTransGen (fun vertex next => next ∈ neighbours vertex) source target := by
  refine ⟨fun met => ?_, fun ⟨source, starts, path⟩ => mem_reachable outside enough starts path⟩
  simpa using search_sound met

/-! ### Turns

The loop behind `search` is free to take any vertex off its stack.  It comes to an end in every
order, and always with the same vertices. -/

/-- One turn of a search: the stack and the vertices seen, before and after it. -/
inductive Turn (neighbours : Nat → List Nat) : List Nat × IdSet → List Nat × IdSet → Prop where
  | known {vertex : Nat} {stack rest : List Nat} {seen : IdSet} :
      stack.Perm (vertex :: rest) → vertex ∈ seen → Turn neighbours (stack, seen) (rest, seen)
  | fresh {vertex : Nat} {stack rest after : List Nat} {seen : IdSet} :
      stack.Perm (vertex :: rest) → vertex ∉ seen → after.Perm (neighbours vertex ++ rest) →
      Turn neighbours (stack, seen) (after, seen.insert vertex)

def remaining (neighbours : Nat → List Nat) (size : Nat) (state : List Nat × IdSet) : Nat :=
  state.1.length + unseenEdges neighbours size state.2

private theorem Turn.remaining_lt (outside : ∀ vertex, size ≤ vertex → neighbours vertex = [])
    {state next : List Nat × IdSet} (turn : Turn neighbours state next) :
    remaining neighbours size next < remaining neighbours size state := by
  cases turn with
  | known isTop _ =>
      have stack := isTop.length_eq
      simp only [remaining, List.length_cons] at stack ⊢
      omega
  | fresh isTop isNew grown =>
      have stack := isTop.length_eq
      have after := grown.length_eq
      have count := unseenEdges_insert outside isNew
      simp only [remaining, List.length_cons, List.length_append] at stack after ⊢
      omega

theorem turn_wellFounded (outside : ∀ vertex, size ≤ vertex → neighbours vertex = []) :
    WellFounded fun next state => Turn neighbours state next :=
  Subrelation.wf (Turn.remaining_lt outside) (measure (remaining neighbours size)).wf

private theorem exists_turn {stack : List Nat} (busy : stack ≠ []) (seen : IdSet) :
    ∃ next, Turn neighbours (stack, seen) next := by
  obtain ⟨vertex, rest, rfl⟩ := List.exists_cons_of_ne_nil busy
  by_cases known : vertex ∈ seen
  · exact ⟨_, .known (.refl _) known⟩
  · exact ⟨_, .fresh (.refl _) known (.refl _)⟩

private theorem exists_turns (outside : ∀ vertex, size ≤ vertex → neighbours vertex = [])
    (state : List Nat × IdSet) :
    ∃ seen, Relation.ReflTransGen (Turn neighbours) state ([], seen) := by
  induction state using (turn_wellFounded outside).induction with
  | _ state ih =>
      obtain ⟨stack, seen⟩ := state
      by_cases done : stack = []
      · subst done
        exact ⟨seen, .refl⟩
      · obtain ⟨next, turn⟩ := exists_turn done seen
        obtain ⟨last, turns⟩ := ih next turn
        exact ⟨last, .head turn turns⟩

/-- Between two turns everything met can be reached, and what can be reached in one step from a
vertex that was seen has at least been put on the stack. -/
structure Searching (neighbours : Nat → List Nat) (start : List Nat) (state : List Nat × IdSet) :
    Prop where
  sound : ∀ vertex, vertex ∈ state.1 ∨ vertex ∈ state.2 → ∃ source ∈ start,
    Relation.ReflTransGen (fun vertex next => next ∈ neighbours vertex) source vertex
  started : ∀ source ∈ start, source ∈ state.1 ∨ source ∈ state.2
  covered : ∀ vertex ∈ state.2, ∀ next ∈ neighbours vertex, next ∈ state.1 ∨ next ∈ state.2

private theorem Turn.searching {start : List Nat} {state next : List Nat × IdSet}
    (turn : Turn neighbours state next) (searching : Searching neighbours start state) :
    Searching neighbours start next := by
  obtain ⟨sound, started, covered⟩ := searching
  cases turn with
  | @known vertex stack rest seen isTop isKnown =>
      have onStack : ∀ other, other ∈ stack ↔ other = vertex ∨ other ∈ rest := by
        simp [isTop.mem_iff]
      constructor <;> grind
  | @fresh vertex stack rest after seen isTop isNew grown =>
      have onStack : ∀ other, other ∈ stack ↔ other = vertex ∨ other ∈ rest := by
        simp [isTop.mem_iff]
      have onNext : ∀ other, other ∈ after ↔ other ∈ neighbours vertex ∨ other ∈ rest := by
        simp [grown.mem_iff]
      obtain ⟨source, starts, path⟩ := sound vertex (.inl ((onStack vertex).mpr (.inl rfl)))
      constructor
      · intro other member
        rcases member with waiting | isSeen
        · rcases (onNext other).mp waiting with isNext | below
          · exact ⟨source, starts, path.tail isNext⟩
          · exact sound other (.inl ((onStack other).mpr (.inr below)))
        · rcases OrderedSet.mem_insert.mp isSeen with rfl | earlier
          · exact ⟨source, starts, path⟩
          · exact sound other (.inr earlier)
      · grind [OrderedSet.mem_insert]
      · grind [OrderedSet.mem_insert]

/-- Whatever turns a search takes, it ends with what can be reached. -/
theorem mem_of_turns {start : List Nat} {seen : IdSet}
    (turns : Relation.ReflTransGen (Turn neighbours) (start, ∅) ([], seen)) {target : Nat} :
    target ∈ seen ↔ ∃ source ∈ start,
      Relation.ReflTransGen (fun vertex next => next ∈ neighbours vertex) source target := by
  have searching : Searching neighbours start ([], seen) := by
    generalize ends : (([] : List Nat), seen) = last at turns
    clear ends
    induction turns with
    | refl => exact ⟨fun vertex => by simpa using fun starts => ⟨vertex, starts, .refl⟩,
        by simp, by simp⟩
    | tail _ turn ih => exact turn.searching ih
  constructor
  · exact fun member => searching.sound target (.inr member)
  · rintro ⟨source, starts, path⟩
    induction path with
    | refl => simpa using searching.started source starts
    | tail _ isNext ih => simpa using searching.covered _ ih _ isNext

end Search

/-! ## Lists of edges -/

section Edges

variable {Edge : Type}

private theorem sum_filter_le (edges : List Edge) (near : Edge → Nat) (size : Nat) :
    ∑ vertex ∈ Finset.range size, (edges.filter fun edge => near edge = vertex).length ≤
      edges.length := by
  induction edges with
  | nil => simp
  | cons edge edges ih =>
      have one : ∑ vertex ∈ Finset.range size, (if near edge = vertex then 1 else 0) ≤ 1 := by
        rw [Finset.sum_ite_eq]
        split <;> simp
      calc ∑ vertex ∈ Finset.range size,
            ((edge :: edges).filter fun edge => near edge = vertex).length
          = ∑ vertex ∈ Finset.range size, ((if near edge = vertex then 1 else 0) +
              (edges.filter fun edge => near edge = vertex).length) := by
            refine Finset.sum_congr rfl fun vertex _ => ?_
            by_cases leaves : near edge = vertex <;> simp [leaves, Nat.add_comm]
        _ ≤ 1 + edges.length := by
            rw [Finset.sum_add_distrib]
            exact Nat.add_le_add one ih
        _ = (edge :: edges).length := by
            simp [Nat.add_comm]

variable (edges : List Edge) (near far : Edge → Nat) (blocked : Nat → Bool)

def onwards (vertex : Nat) : List Nat :=
  if blocked vertex then [] else (edges.filter fun edge => near edge = vertex).map far

theorem exists_onwards_outside : ∃ size, ∀ vertex, size ≤ vertex →
    onwards edges near far blocked vertex = [] := by
  obtain ⟨size, inside⟩ := (edges.map near).toFinset.exists_nat_subset_range
  have inside : ∀ edge ∈ edges, near edge < size := fun edge member => by
    simpa using inside (List.mem_toFinset.mpr (List.mem_map_of_mem member))
  refine ⟨size, fun vertex beyond => ?_⟩
  have none : edges.filter (fun edge => near edge = vertex) = [] := by
    refine List.filter_eq_nil_iff.mpr fun edge member => ?_
    have := inside edge member
    simp
    omega
  simp [onwards, none]

private theorem sum_onwards_le (size : Nat) :
    ∑ vertex ∈ Finset.range size, (onwards edges near far blocked vertex).length ≤
      edges.length := by
  refine le_trans (Finset.sum_le_sum fun vertex _ => ?_) (sum_filter_le edges near size)
  unfold onwards
  split <;> simp

variable {edges near far blocked}

theorem mem_onwards {vertex next : Nat} : next ∈ onwards edges near far blocked vertex ↔
    blocked vertex = false ∧ ∃ edge ∈ edges, near edge = vertex ∧ far edge = next := by
  unfold onwards
  cases blocked vertex <;> simp [and_assoc]

theorem mem_reachable_onwards {start : List Nat} {target : Nat} :
    target ∈ reachable edges.length (onwards edges near far blocked) start ↔ ∃ source ∈ start,
      Relation.ReflTransGen (fun vertex next => next ∈ onwards edges near far blocked vertex)
        source target := by
  obtain ⟨size, outside⟩ := exists_onwards_outside edges near far blocked
  exact mem_reachable_iff outside (sum_onwards_le edges near far blocked size)

variable (edges near far)

theorem mem_reachable_edges {start : List Nat} {target : Nat} :
    target ∈ reachable edges.length
        (fun vertex => if blocked vertex then []
          else (edges.filter fun edge => near edge = vertex).map far) start ↔
      ∃ source ∈ start, Relation.ReflTransGen (fun vertex next =>
        blocked vertex = false ∧ ∃ edge ∈ edges, near edge = vertex ∧ far edge = next)
          source target := by
  simp only [← mem_onwards]
  exact mem_reachable_onwards

variable (blocked) in
/-- However such a search picks its vertices, it comes to an end, and finds the same. -/
theorem turns_onwards (start : List Nat) :
    WellFounded (fun next state => Turn (onwards edges near far blocked) state next) ∧
      (∃ seen, Relation.ReflTransGen (Turn (onwards edges near far blocked)) (start, ∅)
        ([], seen)) ∧
      ∀ seen, Relation.ReflTransGen (Turn (onwards edges near far blocked)) (start, ∅) ([], seen) →
        seen = reachable edges.length (onwards edges near far blocked) start := by
  obtain ⟨size, outside⟩ := exists_onwards_outside edges near far blocked
  refine ⟨turn_wellFounded outside, exists_turns outside _, fun seen turns => ?_⟩
  ext target
  rw [mem_of_turns turns, mem_reachable_onwards]

end Edges

end ObjectFlow
