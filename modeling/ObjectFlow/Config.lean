import ObjectFlow.KeySet.Basic
import ObjectFlow.Text.Quoted

/-!
# Settings of an analysis
-/

namespace ObjectFlow

structure Config where
  policy : String
  depth : Nat
  heapDepth : Nat
  recency : Bool
  /-- How many workers evaluate statements; zero for one per processor. -/
  workers : Nat
  timeoutMs : Option Nat
  setKind : SetKind
  /-- Whether each question to the policy is asked twice. -/
  verifyPolicy : Bool
  deriving DecidableEq, Repr

namespace Config

def default : Config := ⟨"object", 2, 1, false, 0, none, .hashed, false⟩

instance : Inhabited Config := ⟨default⟩

def withPolicy (config : Config) (policy : String) : Config := { config with policy := policy }

def withWorkers (config : Config) (workers : Nat) : Config := { config with workers := workers }

def timeout (config : Config) : Option (Nat × Nat) :=
  config.timeoutMs.map fun ms => (ms / 1000, ms % 1000)

def render (config : Config) : List String :=
  let timeout := match config.timeoutMs with
    | none => ["    timeout_ms: None,"]
    | some ms => ["    timeout_ms: Some(", s!"        {ms},", "    ),"]
  let setKind := match config.setKind with
    | .hashed => "Hashed"
    | .bitVector => "BitVector"
  ["AnalysisConfig \x7b",
    s!"    policy: {Text.quote config.policy},",
    s!"    depth: {config.depth},",
    s!"    heap_depth: {config.heapDepth},",
    s!"    recency: {config.recency},",
    s!"    workers: {config.workers},"] ++ timeout ++
  [s!"    set_kind: {setKind},",
    s!"    verify_policy: {config.verifyPolicy},",
    "\x7d"]

end Config

end ObjectFlow
