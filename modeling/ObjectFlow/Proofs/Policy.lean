import ObjectFlow.Policy

/-!
# The registered policies

There are three registered policies, each with or without recency.  All of them
are pure, and all of them are confined: contexts are of limited length and made
of the sites they are asked about.
-/

namespace ObjectFlow

inductive Policy.Registered (config : Config) : Policy → Prop where
  | callSite : Registered config (.callSite config.depth config.heapDepth)
  | insensitive : Registered config .insensitive
  | object : Registered config (.object config.depth config.heapDepth)

namespace HeapAbstraction

variable {config : Config} {abstraction : HeapAbstraction}

theorem ofConfig_cases (chosen : ofConfig config = .ok abstraction) :
    ∃ policy, Policy.Registered config policy ∧ abstraction = refine policy config := by
  unfold ofConfig at chosen
  cases found : registeredPolicy? config.policy with
  | none =>
      rw [found] at chosen
      cases chosen
  | some registered =>
      rw [found] at chosen
      obtain rfl : refine (registered.build config) config = abstraction := Except.ok.inj chosen
      refine ⟨_, ?_, rfl⟩
      have listed := List.mem_of_find?_eq_some found
      simp only [registeredPolicies, List.mem_cons, List.not_mem_nil, or_false] at listed
      rcases listed with rfl | rfl | rfl
      · exact .callSite
      · exact .insensitive
      · exact .object

end HeapAbstraction

namespace Policy

variable {policy : Policy}

theorem IsPure.withRecency (pure : policy.IsPure) : policy.withRecency.IsPure := by
  constructor
  · intro earlier site receiver caller
    exact pure.1 earlier site (receiver.map (·.withRecency .plain)) caller
  · intro earlier site context
    show (policy.record earlier site context).withRecency .mostRecent = _
    rw [pure.2]
    rfl

theorem Registered.isPure {config : Config} (registered : Registered config policy) :
    policy.IsPure := by
  cases registered <;> exact ⟨fun _ _ _ _ => rfl, fun _ _ _ => rfl⟩

end Policy

theorem Policy.Registered.summaryOf {config : Config} {policy : Policy}
    (registered : Registered config policy) (object : HeapObject) :
    policy.summaryOf object = none := by
  cases registered <;> rfl

/-! ## Limited contexts -/

def Context.Over (elements : List ContextElement) (depth : Nat) (context : Context) : Prop :=
  context.length ≤ depth ∧ ∀ element ∈ context.elements, element ∈ elements

namespace Context.Over

variable {elements : List ContextElement} {depth : Nat} {context : Context}

theorem empty : Context.empty.Over elements depth :=
  ⟨Nat.zero_le _, fun _ member => absurd member List.not_mem_nil⟩

private theorem push (limited : context.Over elements depth) {element : ContextElement}
    (known : element ∈ elements) : (context.push element depth).Over elements depth := by
  constructor
  · exact List.length_take_le _ _
  · intro other member
    rcases List.mem_cons.mp (List.mem_of_mem_take member) with rfl | member
    · exact known
    · exact limited.2 other member

private theorem truncate (limited : context.Over elements depth) (limit : Nat) :
    (context.truncate limit).Over elements (min depth limit) := by
  constructor
  · exact Nat.le_min.mpr
      ⟨Nat.le_trans (List.length_take_le' _ _) limited.1, List.length_take_le _ _⟩
  · exact fun other member => limited.2 other (List.mem_of_mem_take member)

theorem mono {more : Nat} (limited : context.Over elements depth) (le : depth ≤ more) :
    context.Over elements more :=
  ⟨Nat.le_trans limited.1 le, limited.2⟩

end Context.Over

/-- The policy makes contexts and heap contexts of at most so many elements, from the sites it is
asked about. -/
structure Policy.Confined (depth heapDepth : Nat) (policy : Policy) : Prop where
  initial : policy.initialContext = .empty
  merge : ∀ {elements site receiver caller}, .call site ∈ elements →
    (∀ object, receiver = some object →
      .allocation object.site ∈ elements ∧ object.context.Over elements depth) →
    caller.Over elements depth → (policy.merge 0 site receiver caller).Over elements depth
  site : ∀ site context, (policy.record 0 site context).site = site
  record : ∀ {elements site context}, context.Over elements depth →
    (policy.record 0 site context).context.Over elements (min depth heapDepth)
  summary : ∀ {object summary}, policy.summaryOf object = some summary →
    summary.site = object.site ∧ summary.context = object.context

namespace Policy

variable {config : Config} {policy : Policy} {depth heapDepth : Nat}

theorem Registered.confined (registered : Registered config policy) :
    policy.Confined config.depth config.heapDepth := by
  cases registered with
  | callSite =>
      refine ⟨rfl, ?_, fun _ _ => rfl, fun limited => limited.truncate _,
        fun found => by cases found⟩
      exact fun site _ caller => caller.push site
  | insensitive =>
      exact ⟨rfl, fun _ _ _ => .empty, fun _ _ => rfl, fun _ => .empty, fun found => by cases found⟩
  | object =>
      refine ⟨rfl, ?_, fun _ _ => rfl, fun limited => limited.truncate _,
        fun found => by cases found⟩
      intro elements site receiver caller _ known limited
      cases receiver with
      | none => exact limited
      | some object =>
          obtain ⟨listed, limited⟩ := known object rfl
          exact limited.push listed

private theorem Confined.withRecency (confined : policy.Confined depth heapDepth) :
    policy.withRecency.Confined depth heapDepth where
  initial := confined.initial
  merge site known caller := by
    refine confined.merge site (fun object same => ?_) caller
    obtain ⟨original, rfl, rfl⟩ := Option.map_eq_some_iff.mp same
    exact known original rfl
  site site context := confined.site site context
  record limited := confined.record limited
  summary found := by
    unfold Policy.withRecency at found
    dsimp only at found
    split at found
    · cases found
      exact ⟨rfl, rfl⟩
    · cases found

end Policy

/-! ## Tame policies -/

/-- Objects are of the type of their site, and what stands for older objects is not divided again.
A policy that divides summaries without end keeps inventing objects. -/
structure Policy.Tame (policy : Policy) : Prop where
  record : ∀ site context, (policy.record 0 site context).type = site.type
  summary : ∀ {object summary}, policy.summaryOf object = some summary →
    summary.type = object.type ∧ policy.summaryOf summary = none

private theorem Policy.Confined.tame {policy : Policy} {depth heapDepth : Nat}
    (confined : policy.Confined depth heapDepth)
    (undivided : ∀ {object summary}, policy.summaryOf object = some summary →
      policy.summaryOf summary = none) : policy.Tame where
  record site context := by rw [HeapObject.type, confined.site]
  summary found := by
    rw [HeapObject.type, HeapObject.type, (confined.summary found).1]
    exact ⟨rfl, undivided found⟩

/-! ## Recency -/

/-- Just the most recent objects have a summary. -/
def Policy.TellsRecency (policy : Policy) : Prop :=
  ∀ object, policy.summaryOf object =
    if object.recency = .mostRecent then some (object.withRecency .summary) else none

theorem Policy.TellsRecency.recency_of_summary {policy : Policy} (tells : policy.TellsRecency)
    {object summary : HeapObject} (found : policy.summaryOf object = some summary) :
    object.recency = .mostRecent ∧ summary = object.withRecency .summary := by
  rw [tells] at found
  split at found
  · next recent => exact ⟨recent, (Option.some.inj found).symm⟩
  · cases found

/-! ## Settings -/

theorem HeapAbstraction.policy_of_config {config : Config} {abstraction : HeapAbstraction}
    (chosen : ofConfig config = .ok abstraction) (plain : config.recency = false) :
    Policy.Registered config abstraction.policy ∧
      (config.policy = "call-site" →
        abstraction.policy = .callSite config.depth config.heapDepth) ∧
      (config.policy = "object" → abstraction.policy = .object config.depth config.heapDepth) ∧
      (config.policy = "insensitive" → abstraction.policy = .insensitive) := by
  refine ⟨?_, fun isName => ?_, fun isName => ?_, fun isName => ?_⟩
  · obtain ⟨policy, registered, rfl⟩ := ofConfig_cases chosen
    simpa [refine, plain] using registered
  all_goals
    unfold ofConfig at chosen
    rw [isName] at chosen
    obtain rfl := Except.ok.inj chosen
    simp [refine, plain]

theorem HeapAbstraction.undivided_of_config {config : Config} {abstraction : HeapAbstraction}
    (chosen : ofConfig config = .ok abstraction) (plain : config.recency = false)
    (object : HeapObject) : abstraction.summaryOf object = none :=
  (policy_of_config chosen plain).1.summaryOf object

theorem HeapAbstraction.tellsRecency_of_config {config : Config} {abstraction : HeapAbstraction}
    (chosen : ofConfig config = .ok abstraction) (recency : config.recency = true) :
    abstraction.policy.TellsRecency := by
  obtain ⟨policy, _, rfl⟩ := ofConfig_cases chosen
  unfold refine
  rw [recency]
  exact fun _ => rfl

theorem HeapAbstraction.isPure_of_config {config : Config} {abstraction : HeapAbstraction}
    (chosen : ofConfig config = .ok abstraction) : abstraction.policy.IsPure := by
  obtain ⟨policy, registered, rfl⟩ := ofConfig_cases chosen
  unfold refine
  cases config.recency with
  | false => exact registered.isPure
  | true => exact registered.isPure.withRecency

theorem HeapAbstraction.confined_of_config {config : Config} {abstraction : HeapAbstraction}
    (chosen : ofConfig config = .ok abstraction) :
    abstraction.policy.Confined config.depth config.heapDepth := by
  obtain ⟨policy, registered, rfl⟩ := ofConfig_cases chosen
  unfold refine
  cases config.recency with
  | false => exact registered.confined
  | true => exact registered.confined.withRecency

theorem HeapAbstraction.tame_of_config {config : Config} {abstraction : HeapAbstraction}
    (chosen : ofConfig config = .ok abstraction) : abstraction.policy.Tame := by
  refine (confined_of_config chosen).tame fun {object summary} found => ?_
  cases recency : config.recency with
  | true =>
      have tells := tellsRecency_of_config chosen recency
      obtain ⟨_, rfl⟩ := tells.recency_of_summary found
      rw [tells]
      exact if_neg nofun
  | false =>
      cases (undivided_of_config chosen recency object).symm.trans found

end ObjectFlow
