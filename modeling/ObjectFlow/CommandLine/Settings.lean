import ObjectFlow.CommandLine.Arguments
import ObjectFlow.Text.Blank

/-!
# Stored settings

The tool keeps its settings in a text file between runs: one setting on a
line, and the name of the policy as the rest of the text.
-/

namespace ObjectFlow.CommandLine

def settingsText (config : Config) : String :=
  "\n".intercalate [
    s!"{config.depth}", s!"{config.heapDepth}", s!"{config.recency}", s!"{config.workers}",
    config.timeoutMs.elim "none" fun ms => s!"{ms}", config.setKind.name, s!"{config.verifyPolicy}",
    config.policy]

def settings? (text : String) : Option Config :=
  match Text.splitOn '\n' text.toList |>.map String.ofList with
  | depth :: heapDepth :: recency :: workers :: timeout :: setKind :: verify :: policy => do
      pure {
        policy := "\n".intercalate policy
        depth := ← number? depth
        heapDepth := ← number? heapDepth
        recency := ← truth? recency
        workers := ← number? workers
        timeoutMs := ← if timeout = "none" then pure none else some <$> number? timeout
        setKind := ← SetKind.ofName? setKind
        verifyPolicy := ← truth? verify }
  | _ => none

end ObjectFlow.CommandLine
