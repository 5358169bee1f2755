import Mathlib.Data.List.Perm.Subperm
import Mathlib.Order.Bounds.Basic
import Mathlib.Order.Lattice
import ObjectFlow.Proofs.Graph.Delta

/-!
# The lattice of deltas

A delta is no more than the set of its parts.  Joining takes the union of the
parts, and the inclusion test decides inclusion of the parts, so deltas inherit
the lattice of sets.  This rests on the normal form that the types of ordered
sets and of edge maps demand: without it deltas with the same parts would differ.
-/

namespace ObjectFlow

namespace OrderedSet

private theorem nodup {α : Type} [Ord α] [Std.LawfulEqOrd α] (set : OrderedSet α) :
    set.toList.Nodup :=
  set.ascending.imp fun {key other} below (same : key = other) => by
    subst same
    simp [Std.ReflCmp.compare_self] at below

/-- Comparing the sizes first rules out no set that is included. -/
@[simp] theorem isSubset_iff {α : Type} [Ord α] [Std.LawfulEqOrd α] [DecidableEq α]
    {set other : OrderedSet α} : set.isSubset other = true ↔ ∀ key ∈ set, key ∈ other := by
  simp only [isSubset, Bool.and_eq_true, decide_eq_true_eq, List.all_eq_true, contains_iff]
  exact and_iff_right_of_imp fun within => (set.nodup.subperm within).length_le

end OrderedSet

namespace EdgeMap

variable {edges other : EdgeMap}

private theorem get_of_lookup {node : NodeId} {objects : IdSet}
    (found : edges.rows.lookup node = some objects) : edges.get node = objects := by
  rw [get, found]
  rfl

theorem isSubset_iff : edges.isSubset other = true ↔ ∀ edge ∈ edges, edge ∈ other := by
  simp only [isSubset, List.all_eq_true, Option.any_eq_true, OrderedSet.isSubset_iff]
  constructor
  · intro rows edge member
    obtain ⟨row, listed, isNode, held⟩ := mem_iff_row.mp member
    obtain ⟨theirs, found, within⟩ := rows row listed
    rw [mem_iff, ← isNode, get_of_lookup found]
    exact within _ held
  · intro within row listed
    obtain ⟨object, held, member⟩ := exists_mem_of_row listed
    obtain ⟨theirs, listed', isNode, _⟩ := mem_iff_row.mp (within _ member)
    have found : other.rows.lookup row.1 = some theirs.2 := by
      rw [← show theirs.1 = row.1 from isNode]
      exact lookup_of_mem other.nodup_rows listed'
    refine ⟨theirs.2, found, fun object held => ?_⟩
    have member := within ⟨row.1, object⟩ (mem_iff_row.mpr ⟨row, listed, rfl, held⟩)
    rwa [mem_iff, get_of_lookup found] at member

private theorem get_union (edges other : EdgeMap) (node : NodeId) :
    (edges.union other).get node = (edges.get node).union (other.get node) := by
  ext object
  rw [OrderedSet.mem_union]
  exact (mem_union : (⟨node, object⟩ : Edge) ∈ edges.union other ↔ _)

end EdgeMap

namespace Delta

variable {delta first second third : Delta}

/-! ## Parts -/

inductive Part where
  | edge (edge : Edge)
  | call (call : CallId)
  | initializer (method : Nat)

def Holds (delta : Delta) : Part → Prop
  | .edge edge => edge ∈ delta.edges
  | .call call => call ∈ delta.calls
  | .initializer method => method ∈ delta.initializers

def parts (delta : Delta) : Set Part := {part | delta.Holds part}

private theorem parts_empty : (∅ : Delta).parts = ∅ := by
  refine Set.eq_empty_of_forall_notMem fun part held => ?_
  cases part with
  | edge edge => exact EdgeMap.not_mem_empty edge held
  | call call => exact OrderedSet.not_mem_empty call held
  | initializer method => exact OrderedSet.not_mem_empty method held

private theorem parts_join (first second : Delta) :
    (first.join second).parts = first.parts ∪ second.parts := by
  ext part
  cases part with
  | edge edge => exact EdgeMap.mem_union
  | call call => exact OrderedSet.mem_union
  | initializer method => exact OrderedSet.mem_union

theorem parts_injective : Function.Injective parts := by
  intro first second same
  have held : ∀ part, first.Holds part ↔ second.Holds part := fun part =>
    Set.ext_iff.mp same part
  obtain ⟨edges, calls, initializers⟩ := first
  obtain ⟨edges', calls', initializers'⟩ := second
  have edges_eq : edges = edges' := EdgeMap.ext fun edge => held (.edge edge)
  have calls_eq : calls = calls' := OrderedSet.ext fun call => held (.call call)
  have initializers_eq : initializers = initializers' :=
    OrderedSet.ext fun method => held (.initializer method)
  rw [edges_eq, calls_eq, initializers_eq]

theorem isWithin_iff : first.isWithin second = true ↔ first.parts ⊆ second.parts := by
  simp only [isWithin, Bool.and_eq_true, OrderedSet.isSubset_iff, EdgeMap.isSubset_iff]
  constructor
  · rintro ⟨⟨calls, initializers⟩, edges⟩ part held
    cases part with
    | edge edge => exact edges edge held
    | call call => exact calls call held
    | initializer method => exact initializers method held
  · intro within
    exact ⟨⟨fun call held => within (a := .call call) held,
      fun method held => within (a := .initializer method) held⟩,
      fun edge held => within (a := .edge edge) held⟩

/-! ## Order -/

theorem compare?_eq_iff : first.compare? second = some .eq ↔ first = second := by
  rw [compare?]
  split_ifs <;> simp_all

private theorem eq_of_within (within : first.isWithin second = true)
    (back : second.isWithin first = true) : first = second :=
  parts_injective ((isWithin_iff.mp within).antisymm (isWithin_iff.mp back))

theorem compare?_lt_iff : first.compare? second = some .lt ↔
    first.parts ⊆ second.parts ∧ ¬ second.parts ⊆ first.parts := by
  rw [← isWithin_iff, ← isWithin_iff, compare?]
  split_ifs with same within other
  · exact iff_of_false nofun fun both => both.2 (same ▸ both.1)
  · exact iff_of_true rfl ⟨within, fun back => same (eq_of_within within back)⟩
  · exact iff_of_false nofun fun both => within both.1
  · exact iff_of_false nofun fun both => within both.1

theorem compare?_gt_iff : first.compare? second = some .gt ↔
    second.parts ⊆ first.parts ∧ ¬ first.parts ⊆ second.parts := by
  rw [← isWithin_iff, ← isWithin_iff, compare?]
  split_ifs with same within other
  · exact iff_of_false nofun fun both => both.2 (same ▸ both.1)
  · exact iff_of_false nofun fun both => both.2 within
  · exact iff_of_true rfl ⟨other, within⟩
  · exact iff_of_false nofun fun both => other both.1

instance : LE Delta where
  le first second := first.compare? second = some .lt ∨ first.compare? second = some .eq

instance : LT Delta where
  lt first second := first.compare? second = some .lt

private theorem compare?_gt_iff_lt : first.compare? second = some .gt ↔ second < first :=
  compare?_gt_iff.trans compare?_lt_iff.symm

theorem le_iff : first ≤ second ↔ first.parts ⊆ second.parts := by
  rw [show first ≤ second ↔ _ from or_congr compare?_lt_iff compare?_eq_iff,
    ← parts_injective.eq_iff]
  constructor
  · rintro (⟨within, _⟩ | same)
    · exact within
    · exact same.subset
  · intro within
    by_cases back : second.parts ⊆ first.parts
    · exact .inr (within.antisymm back)
    · exact .inl ⟨within, back⟩

theorem compare?_none_iff :
    first.compare? second = none ↔ ¬ first ≤ second ∧ ¬ second ≤ first := by
  rw [le_iff, le_iff, ← isWithin_iff, ← isWithin_iff, compare?]
  split_ifs with same within other
  · subst same
    exact iff_of_false nofun fun both => both.1 (isWithin_iff.mpr subset_rfl)
  · exact iff_of_false nofun fun both => both.1 within
  · exact iff_of_false nofun fun both => both.2 other
  · exact iff_of_true rfl ⟨within, other⟩

instance : SemilatticeSup Delta where
  sup := join
  le_refl _ := le_iff.mpr subset_rfl
  le_trans _ _ _ below above := le_iff.mpr ((le_iff.mp below).trans (le_iff.mp above))
  lt_iff_le_not_ge first second := by
    rw [le_iff, le_iff]
    exact compare?_lt_iff
  le_antisymm _ _ below above :=
    parts_injective ((le_iff.mp below).antisymm (le_iff.mp above))
  le_sup_left first second := by
    rw [le_iff, parts_join]
    exact Set.subset_union_left
  le_sup_right first second := by
    rw [le_iff, parts_join]
    exact Set.subset_union_right
  sup_le first second third below above := by
    rw [le_iff, parts_join]
    exact Set.union_subset (le_iff.mp below) (le_iff.mp above)

instance : OrderBot Delta where
  bot := ∅
  bot_le delta := le_iff.mpr (parts_empty ▸ Set.empty_subset delta.parts)

/-! ## Recording -/

/-- Deltas that are recorded piece by piece and joined. -/
inductive Recorded : Delta → Prop where
  | empty : Recorded ∅
  | edges (node : NodeId) (objects : IdSet) {delta : Delta} :
      Recorded delta → Recorded (delta.recordEdges node objects)
  | call (call : CallId) {delta : Delta} : Recorded delta → Recorded (delta.recordCall call)
  | initializer (method : Nat) {delta : Delta} :
      Recorded delta → Recorded (delta.recordInitializer method)
  | join {delta other : Delta} : Recorded delta → Recorded other → Recorded (delta.join other)

theorem Recorded.foldl {α : Type} {step : Delta → α → Delta}
    (kept : ∀ item {delta : Delta}, delta.Recorded → (step delta item).Recorded) :
    ∀ (items : List α) {delta : Delta}, delta.Recorded → (items.foldl step delta).Recorded
  | [], _, recorded => recorded
  | item :: items, _, recorded => foldl kept items (kept item recorded)

/-- The type of deltas demands no more than the normal form: every delta can be recorded. -/
theorem recorded (delta : Delta) : delta.Recorded := by
  obtain ⟨edges, calls, initializers⟩ := delta
  have listed : ∀ set : IdSet, set.toList.foldl OrderedSet.insert ∅ = set := fun set =>
    OrderedSet.ext fun id => OrderedSet.mem_foldl_insert.trans
      (or_iff_right (OrderedSet.not_mem_empty id))
  have first : edges.rows.foldl (fun delta row => recordEdges delta row.1 row.2) ∅ =
      Delta.mk edges ∅ ∅ :=
    (List.foldl_hom (fun edges => Delta.mk edges ∅ ∅) fun _ _ => rfl).trans
      (empty_join ⟨edges, ∅, ∅⟩)
  have second : calls.toList.foldl recordCall ⟨edges, ∅, ∅⟩ = ⟨edges, calls, ∅⟩ :=
    (List.foldl_hom (fun calls => Delta.mk edges calls ∅) fun _ _ => rfl).trans
      (by rw [listed])
  have third : initializers.toList.foldl recordInitializer ⟨edges, calls, ∅⟩ =
      ⟨edges, calls, initializers⟩ :=
    (List.foldl_hom (fun initializers => Delta.mk edges calls initializers)
      fun _ _ => rfl).trans (by rw [listed])
  rw [← third, ← second, ← first]
  refine .foldl .initializer _ (.foldl .call _ (.foldl ?_ edges.rows .empty))
  exact fun row => .edges row.1 row.2

/-! ## The lattice -/

/-- Deltas, all of which can be recorded, form a join semilattice: joining is commutative,
associative and idempotent and the empty delta adds nothing, `compare?` is a partial order
that agrees with equality, and joins are least upper bounds in it, node by node the unions. -/
theorem forms_semilattice (first second third : Delta) :
    first.Recorded ∧
    first.join second = second.join first ∧
    (first.join second).join third = first.join (second.join third) ∧
    first.join first = first ∧
    first.join ∅ = first ∧ (∅ : Delta).join first = first ∧
    (first.compare? second = some .eq ↔ first = second) ∧
    (first.compare? second = some .lt ↔ first ≤ second ∧ first ≠ second) ∧
    (first.compare? second = some .gt ↔ second ≤ first ∧ first ≠ second) ∧
    (first.compare? second = none ↔ ¬ first ≤ second ∧ ¬ second ≤ first) ∧
    first ≤ first ∧ (∅ : Delta) ≤ first ∧
    (first ≤ second → second ≤ first → first = second) ∧
    (first ≤ second → second ≤ third → first ≤ third) ∧
    IsLUB {first, second} (first.join second) ∧
    ∀ node, (first.join second).objectsOf node =
      (first.objectsOf node).union (second.objectsOf node) := by
  refine ⟨recorded first, sup_comm first second, join_assoc first second third,
    sup_idem first, join_empty first, empty_join first, compare?_eq_iff, ?lt, ?gt,
    compare?_none_iff, le_rfl, bot_le, le_antisymm, le_trans, isLUB_pair, ?nodes⟩
  case lt => exact show first < second ↔ _ from lt_iff_le_and_ne
  case gt => exact compare?_gt_iff_lt.trans (lt_iff_le_and_ne.trans (and_congr_right' ne_comm))
  case nodes => exact fun node => EdgeMap.get_union first.edges second.edges node

def initializing : Delta := (ofEdges 0 (.ofList [0, 1])).recordInitializer 5

def spreading : Delta := (ofEdges 0 (.singleton 2)).join (ofEdges 1 (.singleton 0))

theorem forms_semilattice_growing :
    (∅ : Delta) ≤ initializing ∧ initializing.compare? (initializing.join spreading) = some .lt ∧
      initializing.compare? spreading = none ∧ (∅ : Delta) ≤ initializing.join spreading := by
  obtain ⟨-, -, -, -, -, -, -, -, -, -, -, -, -, trans, -⟩ :=
    forms_semilattice ∅ initializing (initializing.join spreading)
  have first : (∅ : Delta) ≤ initializing := .inl (by decide)
  have second : initializing.compare? (initializing.join spreading) = some .lt := by decide
  exact ⟨first, second, by decide, trans first (.inl second)⟩

end Delta

end ObjectFlow
