import ObjectFlow.Error

/-!
# Running computations

Graphs, evaluations, solvers and registrars are changed by computations of one
shape: a state goes in, and an answer or a failure comes out with a state.
These equations run such a computation step by step.
-/

namespace ObjectFlow.Effect

variable {σ α β : Type}

theorem run_bind (first : ExceptT Failure (StateM σ) α)
    (next : α → ExceptT Failure (StateM σ) β) (state : σ) :
    (first >>= next) state =
      match first state with
      | (.ok value, state) => next value state
      | (.error failure, state) => (.error failure, state) := by
  show StateT.bind first (ExceptT.bindCont next) state = _
  unfold StateT.bind
  cases first state with
  | mk outcome after => cases outcome <;> rfl

theorem run_pure (value : α) (state : σ) :
    (pure value : ExceptT Failure (StateM σ) α) state = (.ok value, state) :=
  rfl

theorem run_get (state : σ) : (get : ExceptT Failure (StateM σ) σ) state = (.ok state, state) :=
  rfl

theorem run_set (state after : σ) :
    (set after : ExceptT Failure (StateM σ) PUnit) state = (.ok ⟨⟩, after) :=
  rfl

theorem run_modify (change : σ → σ) (state : σ) :
    (modify change : ExceptT Failure (StateM σ) PUnit) state = (.ok ⟨⟩, change state) :=
  rfl

theorem run_inRange_some (value : α) (state : σ) :
    (inRange (some value) : ExceptT Failure (StateM σ) α) state = (.ok value, state) :=
  rfl

theorem run_inRange_none (state : σ) :
    (inRange none : ExceptT Failure (StateM σ) α) state = (.error .outOfRange, state) :=
  rfl

theorem run_throw (failure : Failure) (state : σ) :
    (throw failure : ExceptT Failure (StateM σ) α) state = (.error failure, state) :=
  rfl

theorem run_fail (cause : Error) (state : σ) :
    (fail cause : ExceptT Failure (StateM σ) α) state = (.error (.error cause), state) :=
  rfl

theorem run_bind_ok {computation : ExceptT Failure (StateM σ) α}
    {next : α → ExceptT Failure (StateM σ) β} {state : σ} {reached : α → σ → Prop}
    {reached' : β → σ → Prop}
    (first : ∃ value after, computation state = (.ok value, after) ∧ reached value after)
    (rest : ∀ value after, reached value after →
      ∃ answer last, next value after = (.ok answer, last) ∧ reached' answer last) :
    ∃ answer last, (computation >>= next) state = (.ok answer, last) ∧ reached' answer last := by
  obtain ⟨value, after, run, here⟩ := first
  obtain ⟨answer, last, run', there⟩ := rest value after here
  exact ⟨answer, last, by rw [run_bind, run]; exact run', there⟩

theorem state_discard (computation : ExceptT Failure (StateM σ) α) (state : σ) :
    ((do let _ ← computation : ExceptT Failure (StateM σ) Unit) state).2 =
      (computation state).2 := by
  rw [run_bind]
  split
  · next ran =>
      rw [ran]
      rfl
  · next ran => rw [ran]

theorem run_mapM (holds : σ → Prop) (good : β → Prop) {body : α → ExceptT Failure (StateM σ) β}
    {items : List α} (each : ∀ item ∈ items, ∀ state, holds state →
      ∃ value after, body item state = (.ok value, after) ∧ holds after ∧ good value)
    {state : σ} (start : holds state) :
    ∃ values after, items.mapM body state = (.ok values, after) ∧
      holds after ∧ ∀ value ∈ values, good value := by
  induction items generalizing state with
  | nil => exact ⟨[], state, rfl, start, by simp⟩
  | cons item items ih =>
      obtain ⟨value, between, run, kept, here⟩ := each item List.mem_cons_self state start
      obtain ⟨values, after, rest, kept', others⟩ :=
        ih (fun other member => each other (List.mem_cons_of_mem _ member)) kept
      refine ⟨value :: values, after, ?_, kept', ?_⟩
      · rw [List.mapM_cons]
        simp only [run_bind, run, rest, run_pure]
      · intro other member
        rcases List.mem_cons.mp member with rfl | member
        · exact here
        · exact others other member

section MapM

variable {body : α → ExceptT Failure (StateM σ) β} {item : α} {items : List α} {state : σ}
  {values : List β}

theorem mapM_cons_eq_ok_iff :
    ((item :: items).mapM body state).1 = .ok values ↔
      ∃ value rest, (body item state).1 = .ok value ∧
        (items.mapM body (body item state).2).1 = .ok rest ∧ value :: rest = values := by
  rw [List.mapM_cons, run_bind]
  cases body item state with
  | mk outcome between =>
      cases outcome with
      | error failure => simp
      | ok value =>
          dsimp only
          rw [run_bind]
          cases items.mapM body between with
          | mk outcome last => cases outcome <;> simp [run_pure]

private theorem mapM_cons_state {value : β} (here : (body item state).1 = .ok value) :
    ((item :: items).mapM body state).2 = (items.mapM body (body item state).2).2 := by
  rw [List.mapM_cons, run_bind]
  cases run : body item state with
  | mk outcome between =>
      rw [run] at here
      cases here
      dsimp only
      rw [run_bind]
      cases items.mapM body between with
      | mk outcome last => cases outcome <;> rfl

theorem turns_of_mapM (run : (items.mapM body state).1 = .ok values) :
    values.length = items.length ∧ ∀ index item value, items[index]? = some item →
      values[index]? = some value →
      (body item ((items.take index).mapM body state).2).1 = .ok value := by
  induction items generalizing state values with
  | nil =>
      rw [List.mapM_nil] at run
      cases run
      simp
  | cons first items ih =>
      obtain ⟨value, rest, here, others, rfl⟩ := mapM_cons_eq_ok_iff.mp run
      obtain ⟨length, turns⟩ := ih others
      refine ⟨by simp [length], fun index item answer isItem isValue => ?_⟩
      cases index with
      | zero =>
          cases isItem
          cases isValue
          rw [List.take_zero, List.mapM_nil]
          exact here
      | succ index =>
          rw [List.take_succ_cons, mapM_cons_state here]
          exact turns index item answer isItem isValue

end MapM

end ObjectFlow.Effect

namespace ObjectFlow

/-! ## Keeping an invariant -/

/-- When the computation succeeds, what held of the state still does, and the answer is good. -/
def Keeps {σ α : Type} (holds : σ → Prop) (computation : ExceptT Failure (StateM σ) α)
    (good : α → Prop) : Prop :=
  ∀ state, holds state → ∀ value after, computation state = (.ok value, after) →
    holds after ∧ good value

namespace Keeps

open Effect

variable {σ α β : Type} {holds : σ → Prop} {computation : ExceptT Failure (StateM σ) α}
  {good better : α → Prop}

private theorem mono (keeps : Keeps holds computation good)
    (implies : ∀ value, good value → better value) : Keeps holds computation better := by
  intro state start value after run
  obtain ⟨kept, here⟩ := keeps state start value after run
  exact ⟨kept, implies value here⟩

theorem and {holds' : σ → Prop} (first : Keeps holds computation good)
    (second : Keeps holds' computation fun _ => True) :
    Keeps (fun state => holds state ∧ holds' state) computation good := by
  intro state start value after run
  obtain ⟨kept, here⟩ := first state start.1 value after run
  exact ⟨⟨kept, (second state start.2 value after run).1⟩, here⟩

theorem pure {value : α} (here : good value) : Keeps holds (pure value) good := by
  intro state start value after run
  cases run
  exact ⟨start, here⟩

theorem bind {next : α → ExceptT Failure (StateM σ) β} {good' : β → Prop}
    (first : Keeps holds computation good)
    (rest : ∀ value, good value → Keeps holds (next value) good') :
    Keeps holds (computation >>= next) good' := by
  intro state start value after run
  rw [run_bind] at run
  split at run
  · next between state' run' =>
      obtain ⟨kept, here⟩ := first state start between state' run'
      exact rest between here state' kept value after run
  · cases run

theorem andThen {next : α → ExceptT Failure (StateM σ) β} {good' : β → Prop}
    (first : Keeps holds computation fun _ => True)
    (rest : ∀ value, Keeps holds (next value) good') :
    Keeps holds (computation >>= next) good' :=
  first.bind fun value _ => rest value

theorem bind_get {next : σ → ExceptT Failure (StateM σ) α}
    (rest : ∀ state, holds state → Keeps holds (next state) good) :
    Keeps holds (get >>= next) good := by
  intro state start value after run
  exact rest state start state start value after run

theorem modify {change : σ → σ} (kept : ∀ state, holds state → holds (change state)) :
    Keeps holds (modify change : ExceptT Failure (StateM σ) PUnit) fun _ => True := by
  intro state start value after run
  cases run
  exact ⟨kept state start, trivial⟩

theorem inRange {value : Option α} (here : ∀ found, value = some found → good found) :
    Keeps holds (inRange value) good := by
  intro state start answer after run
  cases value with
  | none => cases run
  | some found =>
      cases run
      exact ⟨start, here _ rfl⟩

private theorem throw (failure : Failure) :
    Keeps holds (throw failure : ExceptT Failure (StateM σ) α) good := by
  intro _ _ _ _ run
  cases run

theorem fail (cause : Error) : Keeps holds (fail cause : ExceptT Failure (StateM σ) α) good :=
  throw _

theorem forM {items : List β} {body : β → ExceptT Failure (StateM σ) PUnit}
    (each : ∀ item ∈ items, Keeps holds (body item) fun _ => True) :
    Keeps holds (items.forM body) fun _ => True := by
  induction items with
  | nil => exact pure trivial
  | cons item items ih =>
      refine (each item List.mem_cons_self).bind fun _ _ => ?_
      exact ih fun other member => each other (List.mem_cons_of_mem _ member)

theorem mapM_all {items : List β} {body : β → ExceptT Failure (StateM σ) α}
    (each : ∀ item ∈ items, Keeps holds (body item) good) :
    Keeps holds (items.mapM body) fun values => ∀ value ∈ values, good value := by
  induction items with
  | nil => rw [List.mapM_nil]; exact pure (by simp)
  | cons item items ih =>
      rw [List.mapM_cons]
      refine (each item List.mem_cons_self).bind fun value here => ?_
      refine (ih fun other member => each other (List.mem_cons_of_mem _ member)).bind ?_
      exact fun values all => pure (List.forall_mem_cons.mpr ⟨here, all⟩)

theorem mapM {items : List β} {body : β → ExceptT Failure (StateM σ) α}
    (each : ∀ item ∈ items, Keeps holds (body item) fun _ => True) :
    Keeps holds (items.mapM body) fun _ => True :=
  (mapM_all each).mono fun _ _ => trivial

theorem option_forM {item : Option β} {body : β → ExceptT Failure (StateM σ) PUnit}
    (each : ∀ found, Keeps holds (body found) fun _ => True) :
    Keeps holds (item.forM body) fun _ => True := by
  cases item with
  | none => exact pure trivial
  | some found => exact each found

end Keeps

theorem mem_of_lookup {α β : Type} [BEq α] [LawfulBEq α] {entries : List (α × β)} {key : α}
    {value : β} (found : entries.lookup key = some value) : (key, value) ∈ entries := by
  obtain ⟨_, _, rfl, _⟩ := List.lookup_eq_some_iff.mp found
  exact List.mem_append_right _ List.mem_cons_self

theorem lookup_of_mem {α β : Type} [BEq α] [LawfulBEq α] {entries : List (α × β)} {key : α}
    {value : β} (distinct : (entries.map Prod.fst).Nodup) (member : (key, value) ∈ entries) :
    entries.lookup key = some value := by
  obtain ⟨earlier, later, rfl⟩ := List.append_of_mem member
  refine List.lookup_eq_some_iff.mpr ⟨earlier, later, rfl, fun entry isEarlier => ?_⟩
  rw [List.map_append, List.nodup_append] at distinct
  have other := distinct.2.2 entry.1 (List.mem_map_of_mem isEarlier) key List.mem_cons_self
  simpa using other.symm

theorem lookup_map_snd {α β γ : Type} [BEq α] (change : β → γ) (entries : List (α × β)) (key : α) :
    (entries.map fun entry => (entry.1, change entry.2)).lookup key =
      (entries.lookup key).map change := by
  induction entries with
  | nil => rfl
  | cons entry rest ih =>
      rw [List.map_cons, List.lookup_cons, List.lookup_cons]
      split
      · rfl
      · exact ih

theorem toOption_eq_some {ε α : Type} {outcome : Except ε α} {value : α} :
    outcome.toOption = some value ↔ outcome = .ok value := by
  cases outcome with
  | error failure => simp [Except.toOption]
  | ok other => simp [Except.toOption]

theorem mapM_option {α β : Type} {look : α → Option β} {items : List α}
    (found : ∀ item ∈ items, ∃ value, look item = some value) :
    ∃ values, items.mapM look = some values ∧
      (∀ value ∈ values, ∃ item ∈ items, look item = some value) ∧
      ∀ item ∈ items, ∃ value ∈ values, look item = some value := by
  induction items with
  | nil => exact ⟨[], rfl, by simp, by simp⟩
  | cons item items ih =>
      obtain ⟨value, here⟩ := found item List.mem_cons_self
      obtain ⟨values, rest, sound, complete⟩ :=
        ih fun other member => found other (List.mem_cons_of_mem _ member)
      refine ⟨value :: values, by simp [List.mapM_cons, here, rest], ?_, ?_⟩
      · intro other member
        rcases List.mem_cons.mp member with rfl | member
        · exact ⟨item, List.mem_cons_self, here⟩
        · obtain ⟨source, listed, looked⟩ := sound other member
          exact ⟨source, List.mem_cons_of_mem _ listed, looked⟩
      · intro other member
        rcases List.mem_cons.mp member with rfl | member
        · exact ⟨value, List.mem_cons_self, here⟩
        · obtain ⟨answer, listed, looked⟩ := complete other member
          exact ⟨answer, List.mem_cons_of_mem _ listed, looked⟩

theorem mapM_option_congr {α β : Type} {look other : α → Option β} {items : List α}
    (same : ∀ item ∈ items, look item = other item) : items.mapM look = items.mapM other := by
  induction items with
  | nil => rfl
  | cons item items ih =>
      rw [List.mapM_cons, List.mapM_cons, same item List.mem_cons_self,
        ih fun item member => same item (List.mem_cons_of_mem _ member)]

end ObjectFlow
