import Mathlib.Data.List.Forall2
import Mathlib.Data.List.Induction
import ObjectFlow.Proofs.Effect

/-!
# Computations that decide

What a computation refuses is as much part of its meaning as what it answers.
`Decides` says of a computation when exactly it succeeds.  A loop decides what
each round does, where a round may depend on the items dealt with before it.
-/

namespace ObjectFlow

/-- The computation succeeds exactly if it is allowed to, and then the answer and the new state are
as they should be. -/
structure Decides {σ α : Type} (computation : ExceptT Failure (StateM σ) α) (state : σ)
    (allowed : Prop) (meets : α → σ → Prop) : Prop where
  succeeds : allowed → ∃ value after, computation state = (.ok value, after) ∧ meets value after
  fails : ¬allowed → ∃ failure after, computation state = (.error failure, after)

namespace Decides

open Effect

variable {σ α β : Type} {computation : ExceptT Failure (StateM σ) α} {state : σ}
  {allowed allowed' : Prop} {meets : α → σ → Prop}

theorem congr (decides : Decides computation state allowed meets) (same : allowed ↔ allowed') :
    Decides computation state allowed' meets :=
  ⟨fun is => decides.succeeds (same.mpr is),
    fun isNot => decides.fails fun is => isNot (same.mp is)⟩

theorem mono {better : α → σ → Prop} (decides : Decides computation state allowed meets)
    (implies : ∀ value after, meets value after → better value after) :
    Decides computation state allowed better := by
  refine ⟨fun is => ?_, decides.fails⟩
  obtain ⟨value, after, run, here⟩ := decides.succeeds is
  exact ⟨value, after, run, implies value after here⟩

theorem pure {value : α} (here : meets value state) :
    Decides (pure value) state True meets :=
  ⟨fun _ => ⟨value, state, rfl, here⟩, fun isNot => absurd trivial isNot⟩

private theorem throw (failure : Failure) :
    Decides (throw failure : ExceptT Failure (StateM σ) α) state False meets :=
  ⟨False.elim, fun _ => ⟨failure, state, rfl⟩⟩

theorem fail (cause : Error) :
    Decides (fail cause : ExceptT Failure (StateM σ) α) state False meets :=
  throw _

theorem bind {next : α → ExceptT Failure (StateM σ) β} {meets' : β → σ → Prop}
    (first : Decides computation state allowed meets)
    (rest : ∀ value between, meets value between → Decides (next value) between allowed' meets') :
    Decides (computation >>= next) state (allowed ∧ allowed') meets' := by
  constructor
  · rintro ⟨is, is'⟩
    obtain ⟨value, between, run, here⟩ := first.succeeds is
    obtain ⟨value', after, run', here'⟩ := (rest value between here).succeeds is'
    exact ⟨value', after, by rw [run_bind, run]; exact run', here'⟩
  · intro isNot
    by_cases is : allowed
    · obtain ⟨value, between, run, here⟩ := first.succeeds is
      obtain ⟨failure, after, run'⟩ := (rest value between here).fails fun is' => isNot ⟨is, is'⟩
      exact ⟨failure, after, by rw [run_bind, run]; exact run'⟩
    · obtain ⟨failure, after, run⟩ := first.fails is
      exact ⟨failure, after, by rw [run_bind, run]⟩

theorem bind_get {next : σ → ExceptT Failure (StateM σ) α}
    (rest : Decides (next state) state allowed meets) :
    Decides (get >>= next) state allowed meets :=
  ⟨rest.succeeds, rest.fails⟩

theorem bind_run {value : α} {between : σ} {next : α → ExceptT Failure (StateM σ) β}
    {meets' : β → σ → Prop} (run : computation state = (.ok value, between))
    (rest : Decides (next value) between allowed meets') :
    Decides (computation >>= next) state allowed meets' := by
  have same : (computation >>= next) state = next value between := by
    rw [run_bind, run]
  exact ⟨fun is => same ▸ rest.succeeds is, fun isNot => same ▸ rest.fails isNot⟩

theorem bind_inRange {item : β} {found : Option β} (isFound : found = some item)
    {next : β → ExceptT Failure (StateM σ) α}
    (rest : Decides (next item) state allowed meets) :
    Decides (inRange found >>= next) state allowed meets := by
  subst isFound
  exact ⟨rest.succeeds, rest.fails⟩

theorem modify {change : σ → σ} {meets : PUnit → σ → Prop} (here : meets ⟨⟩ (change state)) :
    Decides (modify change : ExceptT Failure (StateM σ) PUnit) state True meets :=
  ⟨fun _ => ⟨⟨⟩, change state, rfl, here⟩, fun isNot => absurd trivial isNot⟩

theorem mapM {items : List β} {body : β → ExceptT Failure (StateM σ) α}
    {permits : List β → β → Prop} (holds : List β → List α → σ → Prop)
    (each : ∀ done item rest, items = done ++ item :: rest → ∀ values state,
      holds done values state → Decides (body item) state (permits done item)
        fun value after => holds (done ++ [item]) (values ++ [value]) after)
    (start : holds [] [] state) :
    Decides (items.mapM body) state
      (∀ done item rest, items = done ++ item :: rest → permits done item)
      fun values after => holds items values after := by
  suffices general : ∀ rest done values state, items = done ++ rest → holds done values state →
      Decides (rest.mapM body) state
        (∀ front item back, rest = front ++ item :: back → permits (done ++ front) item)
        fun more after => holds items (values ++ more) after by
    simpa using general items [] [] state rfl start
  intro rest
  induction rest with
  | nil =>
      intro done values state same here
      rw [List.mapM_nil]
      refine (pure ?_).congr (by simp)
      simpa [same] using here
  | cons item rest ih =>
      intro done values state same here
      rw [List.mapM_cons]
      refine ((each done item rest same values state here).bind fun value between here' =>
        ((ih (done ++ [item]) (values ++ [value]) between (by simp [same]) here').bind
          fun more after last => .pure (by simpa using last))).congr ?_
      constructor
      · rintro ⟨first, others, -⟩ front other back split
        cases front with
        | nil =>
            obtain ⟨rfl, -⟩ := List.cons.inj split
            simpa using first
        | cons _ front =>
            obtain ⟨rfl, goesOn⟩ := List.cons.inj split
            simpa using others front other back goesOn
      · intro all
        refine ⟨by simpa using all [] item rest rfl, fun front other back split => ?_, trivial⟩
        simpa using all (item :: front) other back (by rw [split, List.cons_append])

theorem forM {items : List β} {body : β → ExceptT Failure (StateM σ) PUnit}
    {permits : List β → β → Prop} (holds : List β → σ → Prop)
    (each : ∀ done item rest, items = done ++ item :: rest → ∀ state, holds done state →
      Decides (body item) state (permits done item) fun _ after => holds (done ++ [item]) after)
    (start : holds [] state) :
    Decides (items.forM body) state
      (∀ done item rest, items = done ++ item :: rest → permits done item)
      fun _ after => holds items after := by
  suffices general : ∀ rest done state, items = done ++ rest → holds done state →
      Decides (rest.forM body) state
        (∀ front item back, rest = front ++ item :: back → permits (done ++ front) item)
        fun _ after => holds items after by
    simpa using general items [] state rfl start
  intro rest
  induction rest with
  | nil =>
      intro done state same here
      refine Decides.congr (pure ?_) (by simp)
      simpa [same] using here
  | cons item rest ih =>
      intro done state same here
      refine ((each done item rest same state here).bind fun _ between here' =>
        ih (done ++ [item]) between (by simp [same]) here').congr ?_
      constructor
      · rintro ⟨first, others⟩ front other back split
        cases front with
        | nil =>
            obtain ⟨rfl, -⟩ := List.cons.inj split
            simpa using first
        | cons _ front =>
            obtain ⟨rfl, goesOn⟩ := List.cons.inj split
            simpa using others front other back goesOn
      · intro all
        refine ⟨by simpa using all [] item rest rfl, fun front other back split => ?_⟩
        simpa using all (item :: front) other back (by rw [split, List.cons_append])

end Decides

/-! ## Items in order -/

theorem forall_split_iff {α : Type} {items : List α} {permits : α → Prop} :
    (∀ done item rest, items = done ++ item :: rest → permits item) ↔
      ∀ item ∈ items, permits item := by
  constructor
  · intro all item member
    obtain ⟨done, rest, split⟩ := List.append_of_mem member
    exact all done item rest split
  · rintro all done item rest rfl
    exact all item (by simp)

theorem forall_split_and_iff {α : Type} {items : List α} {permits : α → Prop}
    {fits : List α → α → Prop} :
    (∀ done item rest, items = done ++ item :: rest → permits item ∧ fits done item) ↔
      (∀ item ∈ items, permits item) ∧
        ∀ done item rest, items = done ++ item :: rest → fits done item := by
  rw [← forall_split_iff, ← forall_and]
  refine forall_congr' fun done => ?_
  rw [← forall_and]
  refine forall_congr' fun item => ?_
  rw [← forall_and]
  exact forall_congr' fun rest => imp_and

private theorem nodup_iff_split {α : Type} {names : List α} :
    names.Nodup ↔ ∀ done name rest, names = done ++ name :: rest → name ∉ done := by
  constructor
  · rintro distinct done name rest rfl member
    exact (List.nodup_append.mp distinct).2.2 name member name List.mem_cons_self rfl
  · intro apart
    induction names using List.reverseRecOn with
    | nil => simp
    | append_singleton names name ih =>
        rw [List.nodup_append]
        refine ⟨ih fun done other rest split => ?_, by simp, fun other member _ last same => ?_⟩
        · exact apart done other (rest ++ [name]) (by simp [split])
        · rw [same, List.mem_singleton.mp last] at member
          exact apart names name [] rfl member

theorem nodup_map_iff_split {α β : Type} {items : List α} {name : α → β} :
    (items.map name).Nodup ↔
      ∀ done item rest, items = done ++ item :: rest → name item ∉ done.map name := by
  rw [nodup_iff_split]
  constructor
  · rintro apart done item rest rfl
    exact apart _ _ (rest.map name) (by simp)
  · intro apart done first rest split
    obtain ⟨front, back, rfl, rfl, same⟩ := List.map_eq_append_iff.mp split
    obtain ⟨item, more, rfl, rfl, rfl⟩ := List.map_eq_cons_iff.mp same
    exact apart front item more rfl

theorem mapM_eq_some_iff {α β : Type} {look : α → Option β} {items : List α} {values : List β} :
    items.mapM look = some values ↔
      List.Forall₂ (fun item value => look item = some value) items values := by
  induction items generalizing values with
  | nil => simp [eq_comm]
  | cons item items ih =>
      rw [List.mapM_cons, List.forall₂_cons_left_iff]
      simp only [Option.bind_eq_bind, Option.bind_eq_some_iff, Option.pure_def, Option.some.injEq,
        ih]
      constructor
      · rintro ⟨value, here, others, rest, rfl⟩
        exact ⟨value, others, here, rest, rfl⟩
      · rintro ⟨value, others, here, rest, rfl⟩
        exact ⟨value, here, others, rest, rfl⟩

end ObjectFlow
