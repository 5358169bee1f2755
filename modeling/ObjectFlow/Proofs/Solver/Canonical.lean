import ObjectFlow.Proofs.Solver.Description

/-!
# Dumps of points-to graphs

A dump lists what the nodes of a graph hold, all by name and sorted by name.
It does not show the ids, which depend on the order of the steps.  In a legible
program no two nodes have one name, so that a dump has an entry for each node
that holds something, and two runs have the same dump just when they found the
same.
-/

namespace ObjectFlow

/-! ## Orders of steps -/

/-- The results of running the pending items at some positions, one after the other. -/
def Declaration.Program.scheduled? (declared : Declaration.Program) (config : Config)
    (positions : List Nat) : Option Results := do
  let program ← declared.load.toOption
  let abstraction ← (HeapAbstraction.ofConfig config).toOption
  let analysis : Analysis := ⟨program, abstraction⟩
  let state ← (positions.foldlM (SolverState.step analysis)
    (.seed analysis config.setKind)).toOption
  pure ⟨analysis, state, state.stats, !state.pending.isEmpty⟩

private theorem SolverState.Reachable.foldlM {analysis : Analysis} {kind : SetKind}
    {state last : SolverState} {positions : List Nat} (reachable : Reachable analysis kind state)
    (ran : positions.foldlM (SolverState.step analysis) state = .ok last) :
    Reachable analysis kind last := by
  induction positions generalizing state with
  | nil =>
      cases ran
      exact reachable
  | cons position positions ih =>
      rw [List.foldlM_cons] at ran
      cases stepped : SolverState.step analysis state position with
      | error failure =>
          rw [stepped] at ran
          cases ran
      | ok next =>
          rw [stepped] at ran
          exact ih (reachable.step stepped) ran

private theorem Declaration.Program.scheduled?_spec {declared : Declaration.Program}
    {config : Config} {positions : List Nat} {results : Results}
    (found : declared.scheduled? config positions = some results) :
    declared.load = .ok results.program ∧
      HeapAbstraction.ofConfig config = .ok results.analysis.abstraction ∧
      SolverState.Reachable results.analysis config.setKind results.state := by
  obtain ⟨program, loaded, found⟩ := Option.bind_eq_some_iff.mp found
  obtain ⟨abstraction, chosen, found⟩ := Option.bind_eq_some_iff.mp found
  obtain ⟨state, ran, found⟩ := Option.bind_eq_some_iff.mp found
  cases found
  exact ⟨toOption_eq_some.mp loaded, toOption_eq_some.mp chosen,
    SolverState.Reachable.seed.foldlM (toOption_eq_some.mp ran)⟩

theorem SolverState.Reachable.content_eq {analysis : Analysis} {kind kind' : SetKind}
    {state other : SolverState} (pure : analysis.abstraction.policy.IsPure)
    (reachable : Reachable analysis kind state) (done : state.pending = [])
    (reachable' : Reachable analysis kind' other) (done' : other.pending = []) :
    state.graph.content = other.graph.content :=
  have closed := (reachable.invariant pure).closed done
  have closed' := (reachable'.invariant pure).closed done'
  Set.Subset.antisymm
    (Graph.content_subset (reachable.facts_subset pure closed' 0))
    (Graph.content_subset (reachable'.facts_subset pure closed 0))

theorem Graph.edge_iff_of_content_eq {graph other : Graph} (equal : graph.content = other.content)
    (place : Place) (object : HeapObject) :
    .edge place object ∈ graph.facts 0 ↔ .edge place object ∈ other.facts 0 := by
  have included : ∀ {graph other : Graph}, graph.content = other.content →
      .edge place object ∈ graph.facts 0 → .edge place object ∈ other.facts 0 := by
    intro graph other equal edge
    have member : .edge place object ∈ graph.content := ⟨edge, nofun⟩
    exact Graph.content_subset_facts other 0 (equal ▸ member)
  exact ⟨included equal, included equal.symm⟩

theorem Declaration.Program.exists_scheduled (declared : Declaration.Program) (config : Config)
    (positions positions' : List Nat) (property : Results → Results → Prop)
    [∀ results other, Decidable (property results other)]
    (checked : (declared.scheduled? config positions).any (fun results =>
      (declared.scheduled? config positions').any fun other => results.state.pending.isEmpty ∧
        other.state.pending.isEmpty ∧ property results other) = true) :
    ∃ results other : Results, declared.load = .ok results.program ∧
      other.analysis = results.analysis ∧
      HeapAbstraction.ofConfig config = .ok results.analysis.abstraction ∧
      SolverState.Reachable results.analysis config.setKind results.state ∧
      results.state.pending = [] ∧
      SolverState.Reachable other.analysis config.setKind other.state ∧
      other.state.pending = [] ∧ property results other := by
  obtain ⟨results, found, checked⟩ := (Option.any_eq_true _ _).mp checked
  obtain ⟨other, found', checked⟩ := (Option.any_eq_true _ _).mp checked
  obtain ⟨done, done', holds⟩ := of_decide_eq_true checked
  obtain ⟨loaded, chosen, reachable⟩ := scheduled?_spec found
  obtain ⟨loaded', chosen', reachable'⟩ := scheduled?_spec found'
  refine ⟨results, other, loaded, ?_, chosen, reachable, List.isEmpty_iff.mp done, reachable',
    List.isEmpty_iff.mp done', holds⟩
  have samePrograms : other.analysis.program = results.analysis.program :=
    Except.ok.inj (loaded'.symm.trans loaded)
  have sameAbstractions := Except.ok.inj (chosen'.symm.trans chosen)
  obtain ⟨⟨_, _⟩, _, _, _⟩ := results
  obtain ⟨⟨_, _⟩, _, _, _⟩ := other
  cases samePrograms
  cases sameAbstractions
  rfl

namespace Results

/-! ## Entries sorted by name -/

def Ascending {α : Type} (entries : List (String × α)) : Prop :=
  entries.Pairwise fun entry other => compare entry.1 other.1 = .lt

section Entries

variable {α : Type} {entries others : List (String × α)} {name : String} {value : α}
  {entry : String × α}

theorem mem_of_mem_insertNamed (member : entry ∈ insertNamed name value entries) :
    entry = (name, value) ∨ entry ∈ entries := by
  induction entries with
  | nil => exact .inl (List.mem_singleton.mp member)
  | cons first rest ih =>
      unfold insertNamed at member
      split at member
      · exact List.mem_cons.mp member
      · exact (List.mem_cons.mp member).imp_right (List.mem_cons_of_mem _)
      · rcases List.mem_cons.mp member with rfl | later
        · exact .inr List.mem_cons_self
        · exact (ih later).imp_right (List.mem_cons_of_mem _)

private theorem Ascending.insertNamed (ascending : Ascending entries) :
    Ascending (insertNamed name value entries) := by
  induction entries with
  | nil => exact List.pairwise_singleton _ _
  | cons first rest ih =>
      obtain ⟨above, ascending⟩ := List.pairwise_cons.mp ascending
      unfold Results.insertNamed
      split
      · next below =>
          refine List.pairwise_cons.mpr ⟨fun other member => ?_, List.pairwise_cons.mpr
            ⟨above, ascending⟩⟩
          rcases List.mem_cons.mp member with rfl | later
          · exact below
          · exact Std.TransCmp.lt_trans below (above other later)
      · next same =>
          obtain rfl := Std.LawfulEqCmp.eq_of_compare same
          exact List.pairwise_cons.mpr ⟨above, ascending⟩
      · next after =>
          refine List.pairwise_cons.mpr ⟨fun other member => ?_, ih ascending⟩
          rcases mem_of_mem_insertNamed member with rfl | later
          · exact Std.OrientedCmp.lt_of_gt after
          · exact above other later

private theorem mem_insertNamed (ascending : Ascending entries) :
    entry ∈ insertNamed name value entries ↔
      entry = (name, value) ∨ entry ∈ entries ∧ entry.1 ≠ name := by
  have apart : ∀ {first other : String}, compare first other = .lt → other ≠ first := by
    rintro first _ below rfl
    simp at below
  induction entries with
  | nil => simp [insertNamed]
  | cons first rest ih =>
      obtain ⟨above, ascending⟩ := List.pairwise_cons.mp ascending
      unfold insertNamed
      split
      · next below =>
          have others : ∀ other ∈ first :: rest, other.1 ≠ name := by
            intro other member
            rcases List.mem_cons.mp member with rfl | later
            · exact apart below
            · exact apart (Std.TransCmp.lt_trans below (above other later))
          rw [List.mem_cons]
          exact or_congr_right ⟨fun member => ⟨member, others entry member⟩, And.left⟩
      · next same =>
          obtain rfl := Std.LawfulEqCmp.eq_of_compare same
          rw [List.mem_cons, List.mem_cons]
          refine or_congr_right ⟨fun member => ⟨.inr member, apart (above entry member)⟩, ?_⟩
          rintro ⟨rfl | member, other⟩
          · exact absurd rfl other
          · exact member
      · next after =>
          have differs : first.1 ≠ name := (apart (Std.OrientedCmp.lt_of_gt after)).symm
          refine (List.mem_cons.trans (or_congr Iff.rfl (ih ascending))).trans ?_
          rw [List.mem_cons]
          constructor
          · rintro (rfl | rfl | ⟨member, other⟩)
            · exact .inr ⟨.inl rfl, differs⟩
            · exact .inl rfl
            · exact .inr ⟨.inr member, other⟩
          · rintro (rfl | ⟨rfl | member, other⟩)
            · exact .inr (.inl rfl)
            · exact .inl rfl
            · exact .inr (.inr ⟨member, other⟩)

theorem Ascending.ext (ascending : Ascending entries) (ascending' : Ascending others)
    (same : ∀ entry, entry ∈ entries ↔ entry ∈ others) : entries = others := by
  have asymmetric : ∀ entry other : String × α, compare entry.1 other.1 = .lt →
      compare other.1 entry.1 = .lt → False := by
    intro entry other below above
    cases above.symm.trans (Std.OrientedCmp.gt_of_lt below)
  have distinct : ∀ {entries : List (String × α)}, Ascending entries → entries.Nodup :=
    fun ascending => ascending.imp fun {entry other} below same => by
      subst same
      exact asymmetric _ _ below below
  exact ((List.perm_ext_iff_of_nodup (distinct ascending) (distinct ascending')).mpr same)
    |>.eq_of_pairwise (fun entry other _ _ below above => (asymmetric entry other below above).elim)
      ascending ascending'

end Entries

private theorem mem_foldl_insertNamed {named : List (String × List String)}
    (single : ∀ entry ∈ named, ∀ other ∈ named, entry.1 = other.1 → entry = other)
    {start : List (String × OrderedSet String)} (ascending : Ascending start)
    (apart : ∀ entry ∈ start, ∀ other ∈ named, entry.1 = other.1 →
      entry = (other.1, .ofList other.2)) :
    Ascending (named.foldl (fun entries (name, objects) =>
        insertNamed name (OrderedSet.ofList objects) entries) start) ∧
      ∀ entry, entry ∈ named.foldl (fun entries (name, objects) =>
          insertNamed name (OrderedSet.ofList objects) entries) start ↔
        entry ∈ start ∨ ∃ other ∈ named, entry = (other.1, .ofList other.2) := by
  induction named generalizing start with
  | nil => exact ⟨ascending, fun entry => by simp⟩
  | cons first rest ih =>
      have single' : ∀ entry ∈ rest, ∀ other ∈ rest, entry.1 = other.1 → entry = other :=
        fun entry member other member' => single entry (List.mem_cons_of_mem _ member) other
          (List.mem_cons_of_mem _ member')
      have apart' : ∀ entry ∈ insertNamed first.1 (OrderedSet.ofList first.2) start,
          ∀ other ∈ rest, entry.1 = other.1 → entry = (other.1, .ofList other.2) := by
        intro entry member other member' same
        rcases mem_of_mem_insertNamed member with rfl | earlier
        · rw [single first List.mem_cons_self other (List.mem_cons_of_mem _ member') same]
        · exact apart entry earlier other (List.mem_cons_of_mem _ member') same
      obtain ⟨sorted, members⟩ := ih single' ascending.insertNamed apart'
      refine ⟨sorted, fun entry => (members entry).trans ?_⟩
      rw [mem_insertNamed ascending, List.exists_mem_cons_iff]
      constructor
      · rintro ((new | ⟨earlier, _⟩) | later)
        · exact .inr (.inl new)
        · exact .inl earlier
        · exact .inr (.inr later)
      · rintro (earlier | new | later)
        · by_cases same : entry.1 = first.1
          · exact .inl (.inl (apart entry earlier first List.mem_cons_self same))
          · exact .inl (.inr ⟨earlier, same⟩)
        · exact .inl (.inl new)
        · exact .inr later

/-! ## Entries of dumps -/

structure Described (results : Results) : Prop where
  valid : results.graph.Valid
  objects : ∀ id object, results.graph.object? id = some object →
    ∃ name, results.program.objectName? object = some name
  places : ∀ node place, results.graph.place? node = some place →
    ∃ name, results.program.placeName? place = some name

structure Told (results : Results) : Prop extends Described results where
  distinct : ∀ node other name, results.describeNode? node = some name →
    results.describeNode? other = some name → node = other

/-- A node that holds something, and what it holds, by name. -/
def Shows (results : Results) (entry : String × OrderedSet String) : Prop :=
  ∃ place, results.program.placeName? place = some entry.1 ∧
    (∃ object, .edge place object ∈ results.graph.facts 0) ∧
    ∀ text, text ∈ entry.2 ↔ ∃ object, .edge place object ∈ results.graph.facts 0 ∧
      results.program.objectName? object = some text

variable {results : Results}

theorem describeNode?_of_place? {node : NodeId} {place : Place}
    (located : results.graph.place? node = some place) :
    results.describeNode? node = results.program.placeName? place := by
  rw [describeNode?_eq, located, Option.bind_some]

theorem Described.namedNode?_spec (described : results.Described) {node : NodeId} {objects : IdSet}
    (holds : results.graph.pointsTo? node = some objects) : ∃ name texts place,
    results.namedNode? node = some (name, texts) ∧
      results.describeNode? node = some name ∧ results.graph.place? node = some place ∧
      ∀ text, text ∈ texts ↔ ∃ object, .edge place object ∈ results.graph.facts 0 ∧
        results.program.objectName? object = some text := by
  obtain ⟨data, isData, _⟩ := Option.map_eq_some_iff.mp holds
  obtain ⟨key, isNode⟩ := Graph.node?_of_payload? isData
  obtain ⟨place, located⟩ := described.valid.place?_of_node? isNode
  obtain ⟨name, isName⟩ := described.places node place located
  have isNamed : results.describeNode? node = some name :=
    (describeNode?_of_place? located).trans isName
  have held : ∀ {id}, id ∈ objects.toList → ∃ object text, results.graph.object? id = some object ∧
      results.program.objectName? object = some text := by
    intro id member
    obtain ⟨object, named⟩ := described.valid.target node id ⟨objects, holds, member⟩
    obtain ⟨text, isText⟩ := described.objects id object named
    exact ⟨object, text, named, isText⟩
  have texts : ∀ {id object}, results.graph.object? id = some object →
      results.describeObject? id = results.program.objectName? object := by
    intro id object named
    rw [describeObject?_eq, named, Option.bind_some]
  have all : ∀ id ∈ objects.toList, ∃ text, results.describeObject? id = some text := by
    intro id member
    obtain ⟨_, text, named, isText⟩ := held member
    exact ⟨text, (texts named).trans isText⟩
  obtain ⟨values, run, sound, complete⟩ := mapM_option all
  refine ⟨name, values, place, ?_, isNamed, located, fun text => ⟨fun listed => ?_, ?_⟩⟩
  · unfold namedNode?
    rw [holds, Option.bind_eq_bind, Option.bind_some, isNamed, Option.bind_eq_bind,
      Option.bind_some, run]
    rfl
  · obtain ⟨id, member, isText⟩ := sound text listed
    obtain ⟨object, _, named, _⟩ := held member
    exact ⟨object, ⟨node, id, located, named, objects, holds, member⟩,
      (texts named).symm.trans isText⟩
  · rintro ⟨object, ⟨other, id, located', named, others, holds', member⟩, isText⟩
    obtain rfl := Graph.place?_injective located located'
    cases holds.symm.trans holds'
    obtain ⟨value, listed, isValue⟩ := complete id member
    cases ((texts named).trans isText).symm.trans isValue
    exact listed

def holders (results : Results) : List NodeId :=
  (List.range results.graph.nodes.size).filter fun id =>
    (results.graph.pointsTo? id).any (!·.isEmpty)

theorem holds_of_mem_holders {node : NodeId} (member : node ∈ results.holders) :
    ∃ objects, results.graph.pointsTo? node = some objects ∧ ∃ id, id ∈ objects := by
  obtain ⟨objects, holds, filled⟩ := (Option.any_eq_true _ _).mp (List.mem_filter.mp member).2
  refine ⟨objects, holds, ?_⟩
  by_contra none
  rw [OrderedSet.isEmpty_iff.mpr fun id member => none ⟨id, member⟩] at filled
  cases filled

theorem Described.exists_namedNode? (described : results.Described) :
    ∀ node ∈ results.holders, ∃ entry, results.namedNode? node = some entry := by
  intro node member
  obtain ⟨objects, holds, _⟩ := holds_of_mem_holders member
  obtain ⟨name, texts, _, found, _⟩ := described.namedNode?_spec holds
  exact ⟨(name, texts), found⟩

theorem Described.exists_canonical? (described : results.Described) :
    ∃ dump, results.canonical? = some dump := by
  obtain ⟨named, run, _⟩ := mapM_option described.exists_namedNode?
  exact ⟨_, Option.bind_eq_some_iff.mpr ⟨named, run, rfl⟩⟩

/-- The dump has an entry for each node that holds something, and no others. -/
theorem Told.canonical?_spec (told : results.Told) : ∃ dump, results.canonical? = some dump ∧
    Ascending dump ∧ ∀ entry, entry ∈ dump ↔ results.Shows entry := by
  obtain ⟨named, run, sound, complete⟩ := mapM_option told.exists_namedNode?
  have single : ∀ entry ∈ named, ∀ other ∈ named, entry.1 = other.1 → entry = other := by
    intro entry member other member' same
    obtain ⟨node, listed, found⟩ := sound entry member
    obtain ⟨node', listed', found'⟩ := sound other member'
    obtain ⟨objects, holds, _⟩ := holds_of_mem_holders listed
    obtain ⟨objects', holds', _⟩ := holds_of_mem_holders listed'
    obtain ⟨name, texts, _, isNamed, isName, _⟩ := told.namedNode?_spec holds
    obtain ⟨name', texts', _, isNamed', isName', _⟩ := told.namedNode?_spec holds'
    cases found.symm.trans isNamed
    cases found'.symm.trans isNamed'
    obtain rfl : name = name' := same
    obtain rfl := told.distinct node node' name isName isName'
    cases isNamed.symm.trans isNamed'
    rfl
  obtain ⟨ascending, members⟩ := mem_foldl_insertNamed single List.Pairwise.nil (by simp)
  refine ⟨_, Option.bind_eq_some_iff.mpr ⟨named, run, rfl⟩, ascending, fun entry => ?_⟩
  rw [members]
  constructor
  · rintro (none | ⟨other, listed, rfl⟩)
    · cases none
    · obtain ⟨node, member, found⟩ := sound other listed
      obtain ⟨objects, holds, id, inside⟩ := holds_of_mem_holders member
      obtain ⟨name, texts, place, isNamed, isName, located, held⟩ := told.namedNode?_spec holds
      cases found.symm.trans isNamed
      obtain ⟨object, isObject⟩ := told.valid.target node id ⟨objects, holds, inside⟩
      refine ⟨place, (describeNode?_of_place? located).symm.trans isName,
        ⟨object, node, id, located, isObject, objects, holds, inside⟩, fun text => ?_⟩
      rw [OrderedSet.mem_ofList]
      exact held text
  · rintro ⟨place, isName, ⟨object, node, id, located, isObject, objects, holds, inside⟩, held⟩
    have member : node ∈ results.holders := by
      obtain ⟨_, isNode, _⟩ := Graph.node?_of_place? located
      refine List.mem_filter.mpr ⟨List.mem_range.mpr (Interner.key?_lt isNode), ?_⟩
      refine (Option.any_eq_true _ _).mpr ⟨objects, holds, ?_⟩
      by_contra none
      exact OrderedSet.isEmpty_iff.mp (by simpa using none) id inside
    obtain ⟨other, listed, found⟩ := complete node member
    obtain ⟨name, texts, place', isNamed, isName', located', held'⟩ := told.namedNode?_spec holds
    cases found.symm.trans isNamed
    cases located.symm.trans located'
    have sameName : entry.1 = name := Option.some.inj
      (isName.symm.trans ((describeNode?_of_place? located).symm.trans isName'))
    refine .inr ⟨_, listed, Prod.ext sameName (OrderedSet.ext fun text => ?_)⟩
    rw [OrderedSet.mem_ofList]
    exact (held text).trans (held' text).symm

/-! ## Equal dumps -/

open SolverState

variable {kind kind' : SetKind} {config config' : Config} {declared : Declaration.Program}

private theorem describeNode?_injective (legible : results.program.Legible)
    (loaded : declared.load = .ok results.program)
    (chosen : HeapAbstraction.ofConfig config = .ok results.analysis.abstraction)
    (reachable : Reachable results.analysis kind results.state) {node other : NodeId}
    {name : String} (found : results.describeNode? node = some name)
    (found' : results.describeNode? other = some name) : node = other := by
  have pure := HeapAbstraction.isPure_of_config chosen
  have confined := HeapAbstraction.confined_of_config chosen
  rw [describeNode?_eq] at found found'
  obtain ⟨place, located, isName⟩ := Option.bind_eq_some_iff.mp found
  obtain ⟨place', located', isName'⟩ := Option.bind_eq_some_iff.mp found'
  obtain rfl := legible.placeName?_injective (Declaration.load_sourced loaded).linked
    (reachable.typed loaded pure confined (show Fact.node _ ∈ _ from ⟨node, located⟩))
    (reachable.typed loaded pure confined (show Fact.node _ ∈ _ from ⟨other, located'⟩))
    isName isName'
  exact Graph.place?_injective located located'

theorem described_of_reachable (loaded : declared.load = .ok results.program)
    (chosen : HeapAbstraction.ofConfig config = .ok results.analysis.abstraction)
    (reachable : Reachable results.analysis kind results.state) : results.Described where
  valid := (reachable.invariant (HeapAbstraction.isPure_of_config chosen)).valid
  objects _ _ named := reachable.exists_objectName? loaded chosen named
  places _ _ located := reachable.exists_placeName? loaded chosen located

theorem told_of_reachable (legible : results.program.Legible)
    (loaded : declared.load = .ok results.program)
    (chosen : HeapAbstraction.ofConfig config = .ok results.analysis.abstraction)
    (reachable : Reachable results.analysis kind results.state) : results.Told where
  toDescribed := described_of_reachable loaded chosen reachable
  distinct _ _ _ := describeNode?_injective legible loaded chosen reachable

/-- What one of two runs holds in a place, the other does too if all entries of its dump are
entries of the other's. -/
theorem edges_subset_of_shows {other : Results} (same : other.program = results.program)
    (legible : results.program.Legible) (loaded : declared.load = .ok results.program)
    (chosen : HeapAbstraction.ofConfig config = .ok results.analysis.abstraction)
    (reachable : Reachable results.analysis kind results.state)
    (chosen' : HeapAbstraction.ofConfig config' = .ok other.analysis.abstraction)
    (reachable' : Reachable other.analysis kind' other.state)
    (shown : ∀ entry, results.Shows entry → other.Shows entry) {place : Place}
    {object : HeapObject} (edge : .edge place object ∈ results.graph.facts 0) :
    .edge place object ∈ other.graph.facts 0 := by
  have linked := (Declaration.load_sourced loaded).linked
  have told := told_of_reachable legible loaded chosen reachable
  obtain ⟨node, id, located, named, objects, holds, inside⟩ := edge
  obtain ⟨name, texts, place', _, isName, located', held⟩ := told.namedNode?_spec holds
  obtain rfl := Option.some.inj (located.symm.trans located')
  rw [describeNode?_of_place? located] at isName
  obtain ⟨text, isText⟩ := told.objects id object named
  have edge : .edge place object ∈ results.graph.facts 0 :=
    ⟨node, id, located, named, objects, holds, inside⟩
  obtain ⟨place', isName', ⟨object', edge'⟩, held'⟩ := shown (name, .ofList texts)
    ⟨place, isName, ⟨object, edge⟩, fun text => OrderedSet.mem_ofList.trans (held text)⟩
  rw [same] at isName' held'
  have typed : ∀ {results : Results} {config : Config} {kind : SetKind} {place object},
      declared.load = .ok results.program →
      HeapAbstraction.ofConfig config = .ok results.analysis.abstraction →
      Reachable results.analysis kind results.state →
      .edge place object ∈ results.graph.facts 0 →
      (Fact.node place).Typed results.program.hierarchy := by
    rintro results config kind place object loaded chosen reachable ⟨node, _, located, _⟩
    exact reachable.typed loaded (HeapAbstraction.isPure_of_config chosen)
      (HeapAbstraction.confined_of_config chosen) (show Fact.node _ ∈ _ from ⟨node, located⟩)
  have typed' := typed (loaded.trans (congrArg Except.ok same.symm)) chosen' reachable' edge'
  rw [same] at typed'
  obtain rfl := legible.placeName?_injective linked (typed loaded chosen reachable edge) typed'
    isName isName'
  obtain ⟨object', edge', isText'⟩ := (held' text).mp
    (OrderedSet.mem_ofList.mpr ((held text).mpr ⟨object, edge, isText⟩))
  obtain rfl := legible.objectName?_injective linked isText isText'
  exact edge'

/-- In a legible program each node and each object has a name that no other one has, and two runs
have the same dump just when they found the same points-to relation. -/
theorem canonical_identifies {other : Results} (same : other.program = results.program)
    (legible : results.program.Legible) (loaded : declared.load = .ok results.program)
    (chosen : HeapAbstraction.ofConfig config = .ok results.analysis.abstraction)
    (reachable : Reachable results.analysis kind results.state)
    (chosen' : HeapAbstraction.ofConfig config' = .ok other.analysis.abstraction)
    (reachable' : Reachable other.analysis kind' other.state) :
    (∀ node key, results.graph.node? node = some key → ∃ name,
      results.describeNode? node = some name ∧
        ∀ another, results.describeNode? another = some name → another = node) ∧
    (∀ id object, results.graph.object? id = some object → ∃ name,
      results.describeObject? id = some name ∧
        ∀ another, results.describeObject? another = some name → another = id) ∧
    ∃ dump dump', results.canonical? = some dump ∧ other.canonical? = some dump' ∧
      (dump = dump' ↔ ∀ place object, .edge place object ∈ results.graph.facts 0 ↔
        .edge place object ∈ other.graph.facts 0) := by
  have told := told_of_reachable legible loaded chosen reachable
  have loaded' := loaded.trans (congrArg Except.ok same.symm)
  have legible' : other.program.Legible := same ▸ legible
  refine ⟨fun node key isNode => ?_, fun id object named => ?_, ?_⟩
  · obtain ⟨place, located⟩ := told.valid.place?_of_node? isNode
    obtain ⟨name, isName⟩ := told.places node place located
    have described := (describeNode?_of_place? located).trans isName
    exact ⟨name, described, fun another found => told.distinct another node name found described⟩
  · obtain ⟨name, isName⟩ := told.objects id object named
    refine ⟨name, by rw [describeObject?_eq, named, Option.bind_some, isName], ?_⟩
    intro another found
    rw [describeObject?_eq] at found
    obtain ⟨object', named', isName'⟩ := Option.bind_eq_some_iff.mp found
    obtain rfl := legible.objectName?_injective (Declaration.load_sourced loaded).linked isName
      isName'
    exact Graph.object?_injective named' named
  · obtain ⟨dump, isDump, ascending, members⟩ := told.canonical?_spec
    obtain ⟨dump', isDump', ascending', members'⟩ :=
      (told_of_reachable legible' loaded' chosen' reachable').canonical?_spec
    refine ⟨dump, dump', isDump, isDump', fun equal => ?_, fun edges => ?_⟩
    · subst equal
      exact fun place object =>
        ⟨edges_subset_of_shows same legible loaded chosen reachable chosen' reachable'
          fun entry shown => (members' entry).mp ((members entry).mpr shown),
        edges_subset_of_shows same.symm legible' loaded' chosen' reachable' chosen reachable
          fun entry shown => (members entry).mp ((members' entry).mpr shown)⟩
    · refine ascending.ext ascending' fun entry => ?_
      rw [members, members']
      unfold Shows
      simp only [same, edges]

end Results

theorem canonical_identifies_cloning : ∃ results other : Results,
    cloningProgram.load = .ok results.program ∧ other.program = results.program ∧
      results.program.Legible ∧
      HeapAbstraction.ofConfig recencySettings = .ok results.analysis.abstraction ∧
      HeapAbstraction.ofConfig recencySettings = .ok other.analysis.abstraction ∧
      SolverState.Reachable results.analysis .hashed results.state ∧
      SolverState.Reachable other.analysis .hashed other.state ∧
      results.graph.node? 0 ≠ other.graph.node? 0 ∧
      (∃ name, results.describeNode? 0 = some name ∧
        ∀ another, results.describeNode? another = some name → another = 0) ∧
      ∃ dump, results.canonical? = some dump ∧ other.canonical? = some dump := by
  obtain ⟨results, other, loaded, same, chosen, reachable, done, reachable', done', found,
      differ⟩ :=
    cloningProgram.exists_scheduled recencySettings [0, 0, 0, 0, 0, 0]
      [4, 3, 2, 1, 1, 0, 1, 0, 1, 0] (fun results other =>
        (results.graph.node? 0).isSome ∧ results.graph.node? 0 ≠ other.graph.node? 0)
      (by decide +kernel)
  have legible : results.program.Legible := by
    have checked : (cloningProgram.load.toOption.any fun program => program.Legible) = true := by
      decide +kernel
    rw [loaded] at checked
    exact of_decide_eq_true checked
  have equal := reachable.content_eq (HeapAbstraction.isPure_of_config chosen) done
    (same ▸ reachable') done'
  obtain ⟨key, isNode⟩ := Option.isSome_iff_exists.mp found
  obtain ⟨nodes, _, dump, dump', isDump, isDump', identified⟩ :=
    Results.canonical_identifies (congrArg Analysis.program same) legible loaded chosen reachable
      (same ▸ chosen) reachable'
  obtain rfl := identified.mpr (Graph.edge_iff_of_content_eq equal)
  exact ⟨results, other, loaded, congrArg Analysis.program same, legible, chosen, same ▸ chosen,
    reachable, reachable', differ, nodes 0 key isNode, dump, isDump, isDump'⟩

def shadowingProgram : Declaration.Program :=
  ⟨"Main.main",
    [⟨"T", none, none, false, []⟩,
      ⟨"A", none, none, false, [.field ⟨"f", "T", false⟩]⟩,
      ⟨"B", some "A", none, false, [.field ⟨"f", "T", false⟩]⟩,
      ⟨"Main", none, none, false,
        [.method ⟨"main", none, true, false, false,
          [.local ⟨"b", "B", false⟩, .local ⟨"v", "T", false⟩, .local ⟨"w", "T", false⟩,
            .statement .new { target := some "b", type := some "B" },
            .statement .new { target := some "v", type := some "T" },
            .statement .new { target := some "w", type := some "T" },
            .statement .store
              { base := some "b", field := some "f", className := some "A", source := some "v" },
            .statement .store { base := some "b", field := some "f", source := some "w" }]⟩]⟩]⟩

/-- Two finished runs that found the same points-to relation can have different dumps: of two fields
with one name, the one that is met later hides the other. -/
theorem canonical_hides_shadowed : ∃ results other : Results,
    shadowingProgram.load = .ok results.program ∧ other.analysis = results.analysis ∧
      HeapAbstraction.ofConfig plainSettings = .ok results.analysis.abstraction ∧
      SolverState.Reachable results.analysis .hashed results.state ∧ results.state.pending = [] ∧
      SolverState.Reachable other.analysis .hashed other.state ∧ other.state.pending = [] ∧
      (∀ place object, .edge place object ∈ results.graph.facts 0 ↔
        .edge place object ∈ other.graph.facts 0) ∧
      (∃ dump dump', results.canonical? = some dump ∧ other.canonical? = some dump' ∧
        dump ≠ dump') ∧
      results.describeNode? 3 = some "(Main.main#0: new B in []).f" ∧
      results.describeNode? 4 = some "(Main.main#0: new B in []).f" := by
  let name := "(Main.main#0: new B in []).f"
  obtain ⟨results, other, loaded, same, chosen, reachable, done, reachable', done', differ, first,
      second⟩ := shadowingProgram.exists_scheduled plainSettings [0, 0, 0, 0, 0] [0, 0, 0, 1, 0]
    (fun results other => (results.canonical?.any fun dump => other.canonical?.any (dump ≠ ·)) ∧
      results.describeNode? 3 = some name ∧ results.describeNode? 4 = some name)
    (by decide +kernel)
  obtain ⟨dump, isDump, differ⟩ := (Option.any_eq_true _ _).mp differ
  obtain ⟨dump', isDump', differ⟩ := (Option.any_eq_true _ _).mp differ
  refine ⟨results, other, loaded, same, chosen, reachable, done, reachable', done', ?_,
    ⟨dump, dump', isDump, isDump', of_decide_eq_true differ⟩, first, second⟩
  have pure := HeapAbstraction.isPure_of_config chosen
  have equal := reachable.content_eq pure done (same ▸ reachable') done'
  exact Graph.edge_iff_of_content_eq equal

end ObjectFlow
