/-!
# Finite sets as ascending lists

An `OrderedSet` lists its elements in strictly ascending order, so two sets
with the same elements are equal.  `IdSet` is the set of ids used for
snapshots of points-to sets, subscribers and call edges.
-/

namespace ObjectFlow

structure OrderedSet (α : Type) [Ord α] where
  toList : List α
  ascending : toList.Pairwise fun a b => compare a b = .lt

abbrev IdSet := OrderedSet Nat

namespace OrderedSet

variable {α : Type} [Ord α]

instance [DecidableEq α] : DecidableEq (OrderedSet α) := fun a b =>
  decidable_of_iff (a.toList = b.toList)
    ⟨fun same => by cases a; cases b; cases same; rfl, fun same => by rw [same]⟩

instance [Repr α] : Repr (OrderedSet α) where
  reprPrec set precedence := reprPrec set.toList precedence

instance : Membership α (OrderedSet α) where
  mem set key := key ∈ set.toList

theorem mem_iff {set : OrderedSet α} {key : α} : key ∈ set ↔ key ∈ set.toList :=
  Iff.rfl

instance [DecidableEq α] (set : OrderedSet α) (key : α) : Decidable (key ∈ set) :=
  inferInstanceAs (Decidable (key ∈ set.toList))

def empty : OrderedSet α := ⟨[], .nil⟩

instance : EmptyCollection (OrderedSet α) := ⟨empty⟩

instance : Inhabited (OrderedSet α) := ⟨empty⟩

@[simp] theorem not_mem_empty (key : α) : key ∉ (∅ : OrderedSet α) :=
  List.not_mem_nil

def singleton (key : α) : OrderedSet α := ⟨[key], List.pairwise_singleton _ _⟩

@[simp] theorem mem_singleton {key other : α} : key ∈ singleton other ↔ key = other :=
  List.mem_singleton

def size (set : OrderedSet α) : Nat := set.toList.length

def isEmpty (set : OrderedSet α) : Bool := set.toList.isEmpty

theorem isEmpty_iff {set : OrderedSet α} : set.isEmpty = true ↔ ∀ key, key ∉ set := by
  rw [isEmpty, List.isEmpty_iff, List.eq_nil_iff_forall_not_mem]
  rfl

def max? (set : OrderedSet α) : Option α := set.toList.getLast?

def contains [DecidableEq α] (set : OrderedSet α) (key : α) : Bool := decide (key ∈ set)

@[simp] theorem contains_iff [DecidableEq α] {set : OrderedSet α} {key : α} :
    set.contains key = true ↔ key ∈ set := by
  simp [contains]

def filter (keep : α → Bool) (set : OrderedSet α) : OrderedSet α :=
  ⟨set.toList.filter keep, set.ascending.filter keep⟩

@[simp] theorem mem_filter {keep : α → Bool} {set : OrderedSet α} {key : α} :
    key ∈ set.filter keep ↔ key ∈ set ∧ keep key = true :=
  List.mem_filter

/-- Every element of the first set is in the second, which a larger set rules out at once. -/
def isSubset [DecidableEq α] (set other : OrderedSet α) : Bool :=
  decide (set.size ≤ other.size) && set.toList.all other.contains

/-! ## Insertion -/

def insertInto (key : α) : List α → List α
  | [] => [key]
  | first :: rest =>
      match compare key first with
      | .lt => key :: first :: rest
      | .eq => first :: rest
      | .gt => first :: insertInto key rest

variable [Std.LawfulEqOrd α]

private theorem mem_insertInto {key other : α} :
    ∀ list : List α, other ∈ insertInto key list ↔ other = key ∨ other ∈ list
  | [] => by simp [insertInto]
  | first :: rest => by
      unfold insertInto
      split
      · simp
      · next same =>
          have : key = first := Std.LawfulEqCmp.compare_eq_iff_eq.mp same
          subst this
          simp
      · have ih : other ∈ insertInto key rest ↔ other = key ∨ other ∈ rest := mem_insertInto rest
        simp only [List.mem_cons, ih]
        constructor
        · rintro (h | h | h)
          · exact .inr (.inl h)
          · exact .inl h
          · exact .inr (.inr h)
        · rintro (h | h | h)
          · exact .inr (.inl h)
          · exact .inl h
          · exact .inr (.inr h)

variable [Std.TransOrd α]

private theorem ascending_insertInto {key : α} :
    ∀ list : List α, (list.Pairwise fun a b => compare a b = .lt) →
      (insertInto key list).Pairwise fun a b => compare a b = .lt
  | [], _ => by simp [insertInto]
  | first :: rest, sorted => by
      have tail := List.pairwise_cons.mp sorted
      unfold insertInto
      split
      · next below =>
          refine List.pairwise_cons.mpr ⟨fun other member => ?_, sorted⟩
          rcases List.mem_cons.mp member with rfl | later
          · exact below
          · exact Std.TransCmp.lt_trans below (tail.1 other later)
      · exact sorted
      · next above =>
          refine List.pairwise_cons.mpr ⟨fun other member => ?_, ascending_insertInto rest tail.2⟩
          rcases (mem_insertInto rest).mp member with rfl | later
          · exact Std.OrientedCmp.lt_of_gt above
          · exact tail.1 other later

def insert (set : OrderedSet α) (key : α) : OrderedSet α :=
  ⟨insertInto key set.toList, ascending_insertInto set.toList set.ascending⟩

@[simp] theorem mem_insert {set : OrderedSet α} {key other : α} :
    other ∈ set.insert key ↔ other = key ∨ other ∈ set :=
  mem_insertInto set.toList

theorem mem_foldl_insert {keys : List α} {start : OrderedSet α} {key : α} :
    key ∈ keys.foldl insert start ↔ key ∈ start ∨ key ∈ keys := by
  induction keys generalizing start with
  | nil => simp
  | cons first rest ih =>
      simp only [List.foldl_cons, ih, mem_insert, List.mem_cons]
      rw [or_comm (a := key = first), or_assoc]

def ofList (keys : List α) : OrderedSet α :=
  keys.foldr (fun key set => set.insert key) empty

@[simp] theorem mem_ofList {keys : List α} {key : α} : key ∈ ofList keys ↔ key ∈ keys := by
  induction keys with
  | nil => exact iff_of_false List.not_mem_nil List.not_mem_nil
  | cons first rest ih => simp [ofList, ← ih]

/-! ## Union -/

def mergeFrom (key : α) (mergeRest : List α → List α) : List α → List α
  | [] => key :: mergeRest []
  | first :: rest =>
      match compare key first with
      | .lt => key :: mergeRest (first :: rest)
      | .eq => key :: mergeRest rest
      | .gt => first :: mergeFrom key mergeRest rest

def merge : List α → List α → List α
  | [] => fun other => other
  | key :: rest => mergeFrom key (merge rest)

omit [Std.TransOrd α] in
private theorem mem_mergeFrom {key other : α} {mergeRest : List α → List α} {left : List α}
    (merges : ∀ right, other ∈ mergeRest right ↔ other ∈ left ∨ other ∈ right) (right : List α) :
    other ∈ mergeFrom key mergeRest right ↔ other ∈ key :: left ∨ other ∈ right := by
  induction right with
  | nil => simp [mergeFrom, merges]
  | cons first rest ih =>
      unfold mergeFrom
      split
      · simp only [List.mem_cons, merges, or_assoc]
      · next same =>
          have : key = first := Std.LawfulEqCmp.compare_eq_iff_eq.mp same
          subst this
          simp only [List.mem_cons, merges]
          grind
      · simp only [List.mem_cons, ih]
        grind

omit [Std.TransOrd α] in
private theorem mem_merge {other : α} :
    ∀ left right : List α, other ∈ merge left right ↔ other ∈ left ∨ other ∈ right
  | [], _ => by simp [merge]
  | _ :: left, right => mem_mergeFrom (mem_merge left) right

private theorem ascending_mergeFrom {key : α} {mergeRest : List α → List α} {left : List α}
    (merges : ∀ other right, other ∈ mergeRest right ↔ other ∈ left ∨ other ∈ right)
    (ascends : ∀ right : List α, (right.Pairwise fun a b => compare a b = .lt) →
      (mergeRest right).Pairwise fun a b => compare a b = .lt)
    (above : ∀ other ∈ left, compare key other = .lt) :
    ∀ right : List α, (right.Pairwise fun a b => compare a b = .lt) →
      (mergeFrom key mergeRest right).Pairwise fun a b => compare a b = .lt
  | [], sorted => by
      refine List.pairwise_cons.mpr ⟨fun other member => ?_, ascends [] sorted⟩
      exact above other (((merges other []).mp member).resolve_right List.not_mem_nil)
  | first :: rest, sorted => by
      have tail := List.pairwise_cons.mp sorted
      unfold mergeFrom
      split
      · next below =>
          refine List.pairwise_cons.mpr ⟨fun other member => ?_, ascends _ sorted⟩
          rcases (merges other _).mp member with earlier | later
          · exact above other earlier
          · rcases List.mem_cons.mp later with rfl | later
            · exact below
            · exact Std.TransCmp.lt_trans below (tail.1 other later)
      · next same =>
          have : key = first := Std.LawfulEqCmp.compare_eq_iff_eq.mp same
          subst this
          refine List.pairwise_cons.mpr ⟨fun other member => ?_, ascends _ tail.2⟩
          rcases (merges other _).mp member with earlier | later
          · exact above other earlier
          · exact tail.1 other later
      · next past =>
          have below : compare first key = .lt := Std.OrientedCmp.lt_of_gt past
          refine List.pairwise_cons.mpr ⟨fun other member => ?_,
            ascending_mergeFrom merges ascends above rest tail.2⟩
          rcases (mem_mergeFrom (merges other) rest).mp member with earlier | later
          · rcases List.mem_cons.mp earlier with rfl | earlier
            · exact below
            · exact Std.TransCmp.lt_trans below (above other earlier)
          · exact tail.1 other later

private theorem ascending_merge : ∀ left right : List α,
    (left.Pairwise fun a b => compare a b = .lt) → (right.Pairwise fun a b => compare a b = .lt) →
      (merge left right).Pairwise fun a b => compare a b = .lt
  | [], _, _, sorted => sorted
  | _ :: left, right, ascending, sorted =>
      have tail := List.pairwise_cons.mp ascending
      ascending_mergeFrom (fun _ => mem_merge left)
        (fun right => ascending_merge left right tail.2) tail.1 right sorted

def union (set other : OrderedSet α) : OrderedSet α :=
  ⟨merge set.toList other.toList,
    ascending_merge set.toList other.toList set.ascending other.ascending⟩

@[simp] theorem mem_union {set other : OrderedSet α} {key : α} :
    key ∈ set.union other ↔ key ∈ set ∨ key ∈ other :=
  mem_merge set.toList other.toList

theorem mem_foldl_union {sets : List (OrderedSet α)} {start : OrderedSet α} {key : α} :
    key ∈ sets.foldl union start ↔ key ∈ start ∨ ∃ set ∈ sets, key ∈ set := by
  induction sets generalizing start with
  | nil => simp
  | cons set sets ih => simp [ih, or_assoc]

@[ext] theorem ext {set other : OrderedSet α} (same : ∀ key, key ∈ set ↔ key ∈ other) :
    set = other := by
  obtain ⟨left, leftSorted⟩ := set
  obtain ⟨right, rightSorted⟩ := other
  have members : ∀ key, key ∈ left ↔ key ∈ right := same
  clear same
  suffices left = right by subst this; rfl
  induction left generalizing right with
  | nil =>
      cases right with
      | nil => rfl
      | cons first rest => exact absurd ((members first).mpr (by simp)) List.not_mem_nil
  | cons first rest ih =>
      cases right with
      | nil => exact absurd ((members first).mp (by simp)) List.not_mem_nil
      | cons head tail =>
          have leftTail := List.pairwise_cons.mp leftSorted
          have rightTail := List.pairwise_cons.mp rightSorted
          have irrefl : ∀ key : α, compare key key ≠ .lt := fun key => by
            simp [Std.ReflCmp.compare_self]
          have headsEqual : first = head := by
            rcases List.mem_cons.mp ((members first).mp (by simp)) with h | h
            · exact h
            · rcases List.mem_cons.mp ((members head).mpr (by simp)) with h' | h'
              · exact h'.symm
              · exact absurd (Std.TransCmp.lt_trans (rightTail.1 first h) (leftTail.1 head h'))
                  (irrefl head)
          subst headsEqual
          congr 1
          refine ih leftTail.2 tail rightTail.2 fun key => ?_
          constructor
          · intro member
            rcases List.mem_cons.mp ((members key).mp (by simp [member])) with h | h
            · subst h
              exact absurd (leftTail.1 key member) (irrefl key)
            · exact h
          · intro member
            rcases List.mem_cons.mp ((members key).mpr (by simp [member])) with h | h
            · subst h
              exact absurd (rightTail.1 key member) (irrefl key)
            · exact h

end OrderedSet

def IdSet.render (set : IdSet) : String :=
  "\x7b" ++ ", ".intercalate (set.toList.map toString) ++ "\x7d"

end ObjectFlow
