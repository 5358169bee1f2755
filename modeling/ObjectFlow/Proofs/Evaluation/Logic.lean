import ObjectFlow.Evaluation.Basic
import ObjectFlow.Proofs.Graph.Growth

/-!
# Reasoning about evaluations

`Meets` is what is proved about evaluations.  An evaluation for a reader is
started in a state whose facts lie within some bound.  If it succeeds, it has
only added to the graph, has collected just what it added, is still within the
bound and has reached its goal; it fails only if the bound contains `failure`.

With all facts as the bound this says what an evaluation achieves, and with a
set that is closed under the demand of a statement it says that nothing else
is added.
-/

namespace ObjectFlow

open Effect

def Grows (reader : SubscriberId) (state after : EvalState) : Prop :=
  ∃ delta, Graph.Growth reader state.graph after.graph delta ∧
    after.produced = state.produced.join delta

structure Inside (reader : SubscriberId) (bound : Set Fact) (state : EvalState) : Prop where
  valid : state.graph.Valid
  facts : state.graph.facts reader ⊆ bound

/-- An evaluation reaches a goal, or fails where the bound allows it. -/
def Meets {α : Type} (reader : SubscriberId) (bound : Set Fact) (evaluation : Eval α)
    (state : EvalState) (goal : α → EvalState → Prop) : Prop :=
  match evaluation state with
  | (.ok value, after) => Grows reader state after ∧ Inside reader bound after ∧ goal value after
  | (.error _, _) => .failure ∈ bound

def Fails {α : Type} (evaluation : Eval α) : Prop :=
  ∀ state, ∃ failure after, evaluation state = (.error failure, after)

/-- What holds of a state also holds when the graph has grown. -/
def Stable (reader : SubscriberId) (holds : EvalState → Prop) : Prop :=
  ∀ ⦃state after⦄, Grows reader state after → holds state → holds after

variable {α β : Type} {reader : SubscriberId} {bound : Set Fact} {state : EvalState}

namespace Grows

variable {after last : EvalState}

theorem refl (state : EvalState) : Grows reader state state :=
  ⟨∅, .refl reader state.graph, (Delta.join_empty state.produced).symm⟩

theorem trans (first : Grows reader state after) (second : Grows reader after last) :
    Grows reader state last := by
  obtain ⟨delta, growth, collected⟩ := first
  obtain ⟨more, further, collected'⟩ := second
  exact ⟨delta.join more, growth.trans further, by
    rw [collected', collected, Delta.join_assoc]⟩

theorem object (grows : Grows reader state after) {id : ObjectId} {object : HeapObject}
    (named : state.graph.object? id = some object) : after.graph.object? id = some object := by
  obtain ⟨delta, growth, _⟩ := grows
  exact growth.object named

theorem place (grows : Grows reader state after) {node : NodeId} {place : Place}
    (located : state.graph.place? node = some place) :
    after.graph.place? node = some place := by
  obtain ⟨delta, growth, _⟩ := grows
  exact growth.place located

theorem facts (grows : Grows reader state after) (other : SubscriberId) :
    state.graph.facts other ⊆ after.graph.facts other := by
  obtain ⟨delta, growth, _⟩ := grows
  exact growth.facts_subset other

end Grows

theorem stable_subset_facts (reader : SubscriberId) (wanted : Set Fact) :
    Stable reader fun state => wanted ⊆ state.graph.facts reader :=
  fun _ _ grows met => met.trans (grows.facts reader)

namespace Meets

variable {evaluation : Eval α} {goal : α → EvalState → Prop}

theorem mono {weaker : α → EvalState → Prop} (meets : Meets reader bound evaluation state goal)
    (implies : ∀ value after, Grows reader state after → Inside reader bound after →
      goal value after → weaker value after) :
    Meets reader bound evaluation state weaker := by
  unfold Meets at meets ⊢
  split at meets
  · next value after _ =>
      obtain ⟨grows, inside, reached⟩ := meets
      exact ⟨grows, inside, implies value after grows inside reached⟩
  · exact meets

theorem pure {value : α} (inside : Inside reader bound state) (reached : goal value state) :
    Meets reader bound (pure value) state goal :=
  ⟨.refl state, inside, reached⟩

theorem bind {next : α → Eval β} {goal' : β → EvalState → Prop}
    (first : Meets reader bound evaluation state goal)
    (second : ∀ value after, Grows reader state after → Inside reader bound after →
      goal value after → Meets reader bound (next value) after goal') :
    Meets reader bound (evaluation >>= next) state goal' := by
  unfold Meets at first ⊢
  rw [run_bind]
  split at first
  · next value after run =>
      obtain ⟨grows, inside, reached⟩ := first
      have rest := second value after grows inside reached
      unfold Meets at rest
      rw [run]
      dsimp only
      split at rest
      · next answer last run' =>
          rw [run']
          exact ⟨grows.trans rest.1, rest.2⟩
      · next failure last run' =>
          rw [run']
          exact rest
  · next failure after run =>
      rw [run]
      exact first

theorem bind_congr {other : Eval α} {next : α → Eval β} {goal' : β → EvalState → Prop}
    (same : evaluation state = other state)
    (meets : Meets reader bound (other >>= next) state goal') :
    Meets reader bound (evaluation >>= next) state goal' := by
  have result : (evaluation >>= next) state = (other >>= next) state := by
    rw [run_bind, run_bind, same]
  unfold Meets
  rw [result]
  exact meets

theorem bind_get {next : EvalState → Eval β} {goal' : β → EvalState → Prop}
    (rest : Meets reader bound (next state) state goal') :
    Meets reader bound (get >>= next) state goal' :=
  rest

theorem bind_inRange {value : Option α} {next : α → Eval β} {goal' : β → EvalState → Prop}
    (absent : value = none → .failure ∈ bound)
    (rest : ∀ found, value = some found → Meets reader bound (next found) state goal') :
    Meets reader bound (inRange value >>= next) state goal' := by
  cases value with
  | none => exact absent rfl
  | some found => exact rest found rfl

theorem of_fails (fails : Fails evaluation) (allowed : .failure ∈ bound) :
    Meets reader bound evaluation state goal := by
  obtain ⟨failure, after, run⟩ := fails state
  unfold Meets
  rw [run]
  exact allowed

theorem forM {items : List α} {body : α → Eval PUnit} (reached : α → EvalState → Prop)
    (stable : ∀ item, Stable reader (reached item)) (inside : Inside reader bound state)
    (each : ∀ item ∈ items, ∀ after, Grows reader state after → Inside reader bound after →
      Meets reader bound (body item) after fun _ => reached item) :
    Meets reader bound (items.forM body) state fun _ after =>
      ∀ item ∈ items, reached item after := by
  induction items generalizing state with
  | nil => exact pure inside fun _ member => absurd member List.not_mem_nil
  | cons item items ih =>
      refine (each item List.mem_cons_self state (.refl state) inside).bind ?_
      intro _ after grows inside' done
      refine (ih inside' fun other member later grows' inside'' =>
        each other (List.mem_cons_of_mem _ member) later (grows.trans grows') inside'').mono ?_
      intro _ last grows' _ others other member
      rcases List.mem_cons.mp member with rfl | member
      · exact stable other grows' done
      · exact others other member

theorem mapM {items : List α} {body : α → Eval β} (reached : α → β → EvalState → Prop)
    (stable : ∀ item value, Stable reader (reached item value)) (inside : Inside reader bound state)
    (each : ∀ item ∈ items, ∀ after, Grows reader state after → Inside reader bound after →
      Meets reader bound (body item) after (reached item)) :
    Meets reader bound (items.mapM body) state fun values after =>
      (∀ value ∈ values, ∃ item ∈ items, reached item value after) ∧
        ∀ item ∈ items, ∃ value ∈ values, reached item value after := by
  induction items generalizing state with
  | nil =>
      rw [List.mapM_nil]
      exact pure inside ⟨fun _ member => absurd member List.not_mem_nil,
        fun _ member => absurd member List.not_mem_nil⟩
  | cons item items ih =>
      rw [List.mapM_cons]
      refine (each item List.mem_cons_self state (.refl state) inside).bind ?_
      intro value after grows inside' done
      refine (ih inside' fun other member later grows' inside'' =>
        each other (List.mem_cons_of_mem _ member) later (grows.trans grows') inside'').bind ?_
      rintro values last grows' inside'' ⟨sound, complete⟩
      have done := stable item value grows' done
      refine pure inside'' ⟨fun answer member => ?_, fun other member => ?_⟩
      · rcases List.mem_cons.mp member with rfl | member
        · exact ⟨item, List.mem_cons_self, done⟩
        · obtain ⟨other, listed, reached⟩ := sound answer member
          exact ⟨other, List.mem_cons_of_mem _ listed, reached⟩
      · rcases List.mem_cons.mp member with rfl | member
        · exact ⟨value, List.mem_cons_self, done⟩
        · obtain ⟨answer, listed, reached⟩ := complete other member
          exact ⟨answer, List.mem_cons_of_mem _ listed, reached⟩

end Meets

namespace Fails

variable {evaluation : Eval α}

theorem bind {next : α → Eval β} (fails : Fails evaluation) : Fails (evaluation >>= next) := by
  intro state
  obtain ⟨failure, after, run⟩ := fails state
  exact ⟨failure, after, by rw [run_bind, run]⟩

theorem bind_right {next : α → Eval β} (fails : ∀ value, Fails (next value)) :
    Fails (evaluation >>= next) := by
  intro state
  rw [run_bind]
  split
  · next value after run => exact fails value after
  · next failure after run => exact ⟨failure, after, rfl⟩

theorem fail (cause : Error) : Fails (fail cause : Eval α) :=
  fun state => ⟨_, state, run_fail cause state⟩

end Fails

end ObjectFlow
