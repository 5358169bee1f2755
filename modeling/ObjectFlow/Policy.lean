import ObjectFlow.Config
import ObjectFlow.Context
import ObjectFlow.Error

/-!
# Heap abstraction policies

A policy decides in which context a call runs its callee and which abstract
object an allocation produces.  It is asked with the number of earlier
questions of the same kind; the answers of a pure policy do not depend on it.
The analysis talks to a policy through a `HeapAbstraction`, which can ask each
question twice and compare.
-/

namespace ObjectFlow

structure Requests where
  merges : Nat
  records : Nat
  deriving DecidableEq, Repr

structure Policy where
  name : String
  /-- The context of the entry point, of class initializers and of singletons. -/
  initialContext : Context
  /-- The context a call runs in; a static call has no receiver. -/
  merge : (earlier : Nat) → CallSite → (receiver : Option HeapObject) → (caller : Context) → Context
  record : (earlier : Nat) → AllocationSite → Context → HeapObject
  /-- The object that stands for all older objects of a most recent one. -/
  summaryOf : HeapObject → Option HeapObject

namespace Policy

/-- The answers do not depend on how often the policy was asked before. -/
def IsPure (policy : Policy) : Prop :=
  (∀ earlier site receiver caller,
    policy.merge earlier site receiver caller = policy.merge 0 site receiver caller) ∧
  (∀ earlier site context, policy.record earlier site context = policy.record 0 site context)

def insensitive : Policy where
  name := "insensitive"
  initialContext := .empty
  merge _ _ _ _ := .empty
  record _ site _ := .ofSite site .empty
  summaryOf _ := none

/-- Contexts are the innermost call sites; objects keep the first of them. -/
def callSite (depth heapDepth : Nat) : Policy where
  name := "call-site"
  initialContext := .empty
  merge _ site _ caller := caller.push (.call site) depth
  record _ site context := .ofSite site (context.truncate heapDepth)
  summaryOf _ := none

/-- A method runs in the context of its receiver: the receiver's allocation site before its heap
context.  A static call stays in the caller's context. -/
def object (depth heapDepth : Nat) : Policy where
  name := "object"
  initialContext := .empty
  merge _ _ receiver caller :=
    match receiver with
    | some object => object.context.push (.allocation object.site) depth
    | none => caller
  record _ site context := .ofSite site (context.truncate heapDepth)
  summaryOf _ := none

/-- Tell the newest object of each site from the older ones.  Contexts do not depend on it. -/
def withRecency (inner : Policy) : Policy where
  name := inner.name
  initialContext := inner.initialContext
  merge earlier site receiver caller :=
    inner.merge earlier site (receiver.map (·.withRecency .plain)) caller
  record earlier site context := (inner.record earlier site context).withRecency .mostRecent
  summaryOf object :=
    if object.recency = .mostRecent then some (object.withRecency .summary) else none

/-! ## Policies that are not pure -/

def flaky : Policy where
  name := "flaky"
  initialContext := .empty
  merge _ _ _ caller := caller
  record earlier site context :=
    if earlier % 2 = 0 then .ofSite site context else .ofSite site ⟨[.type site.type]⟩
  summaryOf _ := none

def forgetful : Policy where
  name := "forgetful"
  initialContext := .empty
  merge earlier _ _ _ := ⟨[.type earlier]⟩
  record _ site context := .ofSite site context
  summaryOf _ := none

end Policy

/-! ## The registry -/

structure RegisteredPolicy where
  name : String
  description : String
  build : Config → Policy

def registeredPolicies : List RegisteredPolicy :=
  [⟨"call-site", "k-limited call strings; objects keep the innermost call sites",
      fun config => .callSite config.depth config.heapDepth⟩,
    ⟨"insensitive", "context-insensitive: one context, one object per allocation site",
      fun _ => .insensitive⟩,
    ⟨"object", "object sensitivity: receiver allocation-site chains",
      fun config => .object config.depth config.heapDepth⟩]

def registeredPolicy? (name : String) : Option RegisteredPolicy :=
  registeredPolicies.find? fun registered => registered.name = name

/-! ## Asking a policy -/

structure HeapAbstraction where
  policy : Policy
  verify : Bool

/-- A question to a policy: it is counted, and may fail. -/
abbrev Ask (α : Type) := ExceptT Failure (StateM Requests) α

namespace HeapAbstraction

def refine (policy : Policy) (config : Config) : HeapAbstraction :=
  ⟨if config.recency then policy.withRecency else policy, config.verifyPolicy⟩

def ofConfig (config : Config) : Except Error HeapAbstraction :=
  match registeredPolicy? config.policy with
  | some registered => .ok (refine (registered.build config) config)
  | none => .error (.unknownPolicy config.policy)

def initialContext (abstraction : HeapAbstraction) : Context := abstraction.policy.initialContext

def summaryOf (abstraction : HeapAbstraction) (object : HeapObject) : Option HeapObject :=
  abstraction.policy.summaryOf object

def askMerge (policy : Policy) (site : CallSite) (receiver : Option HeapObject)
    (caller : Context) : Ask Context := do
  let requests ← get
  set { requests with merges := requests.merges + 1 }
  pure (policy.merge requests.merges site receiver caller)

def askRecord (policy : Policy) (site : AllocationSite) (context : Context) :
    Ask HeapObject := do
  let requests ← get
  set { requests with records := requests.records + 1 }
  pure (policy.record requests.records site context)

def merge (abstraction : HeapAbstraction) (site : CallSite) (receiver : Option HeapObject)
    (caller : Context) (origin : String) : Ask Context := do
  let context ← askMerge abstraction.policy site receiver caller
  if abstraction.verify then
    let again ← askMerge abstraction.policy site receiver caller
    if again ≠ context then
      fail (.impurePolicy abstraction.policy.name
        s!"merge at {site.render} returned {context.render} then {again.render}"
        origin caller.render)
  pure context

def record (abstraction : HeapAbstraction) (site : AllocationSite) (context : Context)
    (origin : String) : Ask HeapObject := do
  let object ← askRecord abstraction.policy site context
  if abstraction.verify then
    let again ← askRecord abstraction.policy site context
    if again ≠ object then
      fail (.impurePolicy abstraction.policy.name
        s!"record of {site.render} returned {object.render} then {again.render}"
        origin context.render)
  pure object

/-- Whether running the allocation of a most recent object again in a context gives the object
again, so that the present one becomes part of its summary. -/
def isRecentIn (abstraction : HeapAbstraction) (object : HeapObject) (context : Context) :
    Ask Bool := do
  if object.recency = .mostRecent then
    let again ← askRecord abstraction.policy object.site context
    pure (again = object)
  else
    pure false

end HeapAbstraction

end ObjectFlow
