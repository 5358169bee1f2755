import ObjectFlow.Graph.Delta
import ObjectFlow.Proofs.Effect

/-!
# Edges by node

A map of edges is no more than the set of its edges: it has a row for every
node with an edge and for no other, so maps with the same edges are equal.
-/

namespace ObjectFlow

namespace EdgeMap

variable {edges other : EdgeMap} {node : NodeId} {objects : IdSet} {edge : Edge}

@[simp] theorem not_mem_empty (edge : Edge) : edge ∉ (∅ : EdgeMap) :=
  OrderedSet.not_mem_empty edge.object

theorem nodup_rows (edges : EdgeMap) : (edges.rows.map Prod.fst).Nodup :=
  List.pairwise_map.mpr (edges.ascending.imp Nat.ne_of_lt)

theorem mem_iff_row :
    edge ∈ edges ↔ ∃ row ∈ edges.rows, row.1 = edge.node ∧ edge.object ∈ row.2 := by
  rw [mem_iff, get]
  constructor
  · intro member
    cases found : edges.rows.lookup edge.node with
    | none =>
        rw [found] at member
        exact absurd member (OrderedSet.not_mem_empty _)
    | some objects =>
        rw [found] at member
        exact ⟨_, mem_of_lookup found, rfl, member⟩
  · rintro ⟨⟨_, objects⟩, listed, rfl, member⟩
    rw [lookup_of_mem edges.nodup_rows listed]
    exact member

theorem exists_mem_of_row {row : NodeId × IdSet} (listed : row ∈ edges.rows) :
    ∃ object ∈ row.2, (⟨row.1, object⟩ : Edge) ∈ edges := by
  obtain ⟨object, member⟩ : ∃ object, object ∈ row.2.toList := by
    refine List.exists_mem_of_ne_nil _ fun none => ?_
    have filled := edges.filled row listed
    rw [OrderedSet.isEmpty, none] at filled
    cases filled
  exact ⟨object, member, mem_iff_row.mpr ⟨row, listed, rfl, member⟩⟩

theorem mem_putInto_iff {rows : List (NodeId × IdSet)} :
    (∃ row ∈ putInto node objects rows, row.1 = edge.node ∧ edge.object ∈ row.2) ↔
      (edge.node = node ∧ edge.object ∈ objects) ∨
        ∃ row ∈ rows, row.1 = edge.node ∧ edge.object ∈ row.2 := by
  induction rows with
  | nil => simp [putInto, eq_comm]
  | cons row rest ih =>
      obtain ⟨first, held⟩ := row
      unfold putInto
      split
      · simp [eq_comm]
      · split
        · next same =>
            subst same
            simp only [List.mem_cons, exists_eq_or_imp, OrderedSet.mem_union]
            grind
        · simp only [List.mem_cons, exists_eq_or_imp, ih]
          grind

theorem mem_record : edge ∈ edges.record node objects ↔
    (edge.node = node ∧ edge.object ∈ objects) ∨ edge ∈ edges := by
  unfold record
  split
  · next none =>
      refine ⟨.inr, fun member => member.resolve_left fun here => ?_⟩
      exact OrderedSet.isEmpty_iff.mp none _ here.2
  · rw [mem_iff_row, mem_iff_row]
    exact mem_putInto_iff

theorem mem_union : edge ∈ edges.union other ↔ edge ∈ edges ∨ edge ∈ other := by
  have folded : ∀ rows : List (NodeId × IdSet), ∀ edges : EdgeMap,
      edge ∈ rows.foldl (fun edges row => edges.record row.1 row.2) edges ↔
        edge ∈ edges ∨ ∃ row ∈ rows, row.1 = edge.node ∧ edge.object ∈ row.2 := by
    intro rows
    induction rows with
    | nil => simp
    | cons row rows ih =>
        intro edges
        rw [List.foldl_cons, ih, mem_record]
        simp only [List.mem_cons]
        grind
  rw [show edge ∈ other ↔ _ from mem_iff_row]
  exact folded other.rows edges

theorem isEmpty_iff : edges.isEmpty = true ↔ edges = ∅ := by
  rw [isEmpty, List.isEmpty_iff]
  constructor
  · obtain ⟨rows, _, _⟩ := edges
    rintro rfl
    rfl
  · rintro rfl
    rfl

theorem mem_restrict {keep : NodeId → Bool} :
    edge ∈ edges.restrict keep ↔ edge ∈ edges ∧ keep edge.node = true := by
  simp only [mem_iff_row, restrict, List.mem_filter]
  grind

@[ext] theorem ext (same : ∀ edge, edge ∈ edges ↔ edge ∈ other) : edges = other := by
  have within : ∀ {edges other : EdgeMap}, (∀ edge, edge ∈ edges ↔ edge ∈ other) →
      ∀ row ∈ edges.rows, row ∈ other.rows := by
    intro edges other same row listed
    obtain ⟨object, _, member⟩ := exists_mem_of_row listed
    obtain ⟨row', listed', isNode, _⟩ := mem_iff_row.mp ((same _).mp member)
    have isNode : row'.1 = row.1 := isNode
    have get_eq : ∀ {edges : EdgeMap} {row}, row ∈ edges.rows → edges.get row.1 = row.2 := by
      intro edges row listed
      rw [get, lookup_of_mem edges.nodup_rows listed]
      rfl
    have objects : row.2 = row'.2 := by
      rw [← get_eq listed, ← get_eq listed', isNode]
      exact OrderedSet.ext fun object => same ⟨row.1, object⟩
    rw [show row = row' from Prod.ext isNode.symm objects]
    exact listed'
  have nodup : ∀ edges : EdgeMap, edges.rows.Nodup := fun edges =>
    edges.ascending.imp fun {row later} below (same : row = later) => by
      subst same
      exact Nat.lt_irrefl _ below
  have members : edges.rows.Perm other.rows :=
    (List.perm_ext_iff_of_nodup (nodup edges) (nodup other)).mpr fun row =>
      ⟨within same row, within (fun edge => (same edge).symm) row⟩
  have rows : edges.rows = other.rows :=
    members.eq_of_pairwise (fun _ _ _ _ below above => absurd below (Nat.lt_asymm above))
      edges.ascending other.ascending
  obtain ⟨_, _, _⟩ := edges
  obtain ⟨_, _, _⟩ := other
  cases rows
  rfl

end EdgeMap

namespace Delta

variable {delta : Delta} {node : NodeId}

theorem mem_objectsOf {id : ObjectId} :
    id ∈ delta.objectsOf node ↔ (⟨node, id⟩ : Edge) ∈ delta.edges :=
  Iff.rfl

theorem mem_ofEdges {objects : IdSet} {edge : Edge} :
    edge ∈ (ofEdges node objects).edges ↔ edge.node = node ∧ edge.object ∈ objects := by
  rw [ofEdges, recordEdges, EdgeMap.mem_record]
  exact or_iff_left (EdgeMap.not_mem_empty edge)

theorem mem_ofCall {call other : CallId} : other ∈ (ofCall call).calls ↔ other = call :=
  OrderedSet.mem_insert.trans (or_iff_left (OrderedSet.not_mem_empty other))

theorem ofInitializers_eq (methods : List Nat) :
    ofInitializers methods = ⟨∅, ∅, methods.foldl OrderedSet.insert ∅⟩ :=
  List.foldl_hom (fun initializers => Delta.mk ∅ ∅ initializers) fun _ _ => rfl

theorem mem_ofInitializers {methods : List Nat} {method : Nat} :
    method ∈ (ofInitializers methods).initializers ↔ method ∈ methods := by
  rw [ofInitializers_eq]
  exact OrderedSet.mem_foldl_insert.trans (or_iff_right (OrderedSet.not_mem_empty method))

theorem mem_nodes : node ∈ delta.nodes ↔ ∃ edge ∈ delta.edges, edge.node = node := by
  simp only [nodes, OrderedSet.mem_ofList, List.mem_map]
  constructor
  · rintro ⟨row, listed, rfl⟩
    obtain ⟨object, _, member⟩ := EdgeMap.exists_mem_of_row listed
    exact ⟨_, member, rfl⟩
  · rintro ⟨edge, member, rfl⟩
    obtain ⟨row, listed, isNode, _⟩ := EdgeMap.mem_iff_row.mp member
    exact ⟨row, listed, isNode⟩

theorem isEmpty_iff : delta.isEmpty = true ↔ delta = ∅ := by
  have none : ∀ {ids : IdSet}, ids.isEmpty = true ↔ ids = ∅ := by
    intro ids
    rw [OrderedSet.isEmpty_iff]
    refine ⟨fun none => OrderedSet.ext fun id => iff_of_false (none id) ?_, ?_⟩
    · exact OrderedSet.not_mem_empty id
    · rintro rfl
      exact OrderedSet.not_mem_empty
  obtain ⟨edges, calls, initializers⟩ := delta
  simp only [isEmpty, Bool.and_eq_true, EdgeMap.isEmpty_iff, none]
  constructor
  · rintro ⟨⟨rfl, rfl⟩, rfl⟩
    rfl
  · intro same
    cases same
    exact ⟨⟨rfl, rfl⟩, rfl⟩

/-! ## Joining -/

theorem join_empty (delta : Delta) : delta.join ∅ = delta := by
  obtain ⟨edges, calls, initializers⟩ := delta
  simp only [join, Delta.mk.injEq]
  refine ⟨?_, ?_, ?_⟩ <;> ext key
  · exact EdgeMap.mem_union.trans (or_iff_left (EdgeMap.not_mem_empty key))
  all_goals exact OrderedSet.mem_union.trans (or_iff_left (OrderedSet.not_mem_empty key))

theorem empty_join (delta : Delta) : (∅ : Delta).join delta = delta := by
  obtain ⟨edges, calls, initializers⟩ := delta
  simp only [join, Delta.mk.injEq]
  refine ⟨?_, ?_, ?_⟩ <;> ext key
  · exact EdgeMap.mem_union.trans (or_iff_right (EdgeMap.not_mem_empty key))
  all_goals exact OrderedSet.mem_union.trans (or_iff_right (OrderedSet.not_mem_empty key))

theorem join_assoc (first second third : Delta) :
    (first.join second).join third = first.join (second.join third) := by
  simp only [join, Delta.mk.injEq]
  refine ⟨?_, ?_, ?_⟩ <;> ext key <;> simp only [EdgeMap.mem_union, OrderedSet.mem_union, or_assoc]

end Delta

end ObjectFlow
