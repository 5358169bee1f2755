import ObjectFlow.CommandLine.Help
import ObjectFlow.Program.Loader
import ObjectFlow.Solver.Results

/-!
# The command line tool

Running the tool takes the files it may read and the stored settings.  It
answers what to print, the exit code and the settings to store.
-/

namespace ObjectFlow.CommandLine

structure Report where
  pointsTo : List String
  calls : Option (List String)
  totals : String
  timedOut : Bool
  deriving DecidableEq, Repr

def Report.lines (report : Report) : List String :=
  report.pointsTo ++ (report.calls.elim [] fun calls => "" :: calls) ++ ["", report.totals] ++
    if report.timedOut then ["timed out: the results above are partial"] else []

inductive Outcome where
  | printed (lines : List String)
  | reported (report : Report)
  | failed (reason : String)
  | misused
  deriving DecidableEq, Repr

def Outcome.exitCode : Outcome → Nat
  | .printed _ => 0
  | .reported _ => 0
  | .failed _ => 1
  | .misused => 2

/-! ## Reports -/

def pointsToLines (named : List (String × OrderedSet String)) (start : Option String) :
    List String :=
  let shown := named.filter fun entry => start.all fun text => text.isPrefixOf entry.1
  shown.flatMap fun (node, objects) => node :: objects.toList.map fun object => s!"    {object}"

def callLine? (program : Program) (edge : MethodContext × MethodContext × CallSite) :
    Option String := do
  let (source, target, site) := edge
  let caller ← program.describeMethod? source.method
  let callee ← program.describeMethod? target.method
  pure (s!"{caller} {source.context.render} -> {callee} {target.context.render} " ++
    s!"at site {site.site}")

def report? (results : Results) (method : Option String) (callGraph : Bool) : Option Report := do
  let named ← results.canonical?
  let calls ← results.callGraph.edges.mapM (callLine? results.program)
  let stats := results.stats
  pure {
    pointsTo := pointsToLines named method
    calls := if callGraph then some calls else none
    totals := s!"{stats.objects} objects, {stats.edges} edges, {stats.callEdges} call edges, " ++
      s!"{stats.reachable} reachable method contexts"
    timedOut := results.timedOut }

/-! ## Commands -/

def analyze (config : Config) (bytes : Option (List UInt8)) (file : String)
    (method : Option String) (callGraph : Bool) : Outcome :=
  let loaded := match Declaration.Program.ofFile bytes with
    | .ok declared => declared.load
    | .error cause => .error (.error cause)
  match loaded with
  | .error _ => .failed s!"loading {file}"
  | .ok program =>
      let solved := do
        let abstraction ← match HeapAbstraction.ofConfig config with
          | .ok abstraction => pure abstraction
          | .error cause => fail cause
        let results ← Results.solve ⟨program, abstraction⟩ config
        inRange (report? results method callGraph)
      match solved with
      | .ok report => .reported report
      | .error (.error cause) => .failed cause.message
      | .error .outOfRange => .failed "id out of range"

def policyLine (registered : RegisteredPolicy) : String :=
  let padding := String.ofList (List.replicate (12 - registered.name.length) ' ')
  s!"{registered.name}{padding} {registered.description}"

/-- Stored numbers are signed and have 64 bits. -/
def isStorable (config : Config) : Bool :=
  [config.depth, config.heapDepth, config.workers, config.timeoutMs.getD 0].all (· < 1 <<< 63)

/-- Run a command.  Changed settings are stored before it runs. -/
def runCommand (readFile : String → Option (List UInt8)) (stored : Config) (overrides : Overrides)
    (command : Command) : Outcome × Config :=
  let config := overrides.apply stored
  if config ≠ stored ∧ !isStorable config then
    (.failed "Failed to serialize configuration data into TOML", stored)
  else
    let outcome := match command with
      | .analyze file method callGraph => analyze config (readFile file) file method callGraph
      | .policies => .printed (registeredPolicies.map policyLine)
      | .config => .printed config.render
    (outcome, config)

def run (readFile : String → Option (List UInt8)) (stored : Config) (arguments : List String) :
    Outcome × Config :=
  match request? arguments with
  | none => (.misused, stored)
  | some (.explain topic) => (.printed topic.page.lines, stored)
  | some .version => (.printed [versionLine], stored)
  | some (.run overrides command) => runCommand readFile stored overrides command

def inputFile? (arguments : List String) : Option String :=
  match request? arguments with
  | some (.run _ (.analyze file _ _)) => some file
  | _ => none

end ObjectFlow.CommandLine
