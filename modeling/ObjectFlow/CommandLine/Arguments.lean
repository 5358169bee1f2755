import ObjectFlow.Config
import ObjectFlow.Text.Numeral

/-!
# Command line arguments

A command line has settings and one command.  Settings may stand before or
after the command; each one may be given once on either side, and the one
after the command counts.  Values follow as the next argument or after an
equals sign.  An inquiry asks for a help page or for the version; the arguments
after it are not read.
-/

namespace ObjectFlow.CommandLine

inductive CommandName where
  | analyze
  | policies
  | config
  deriving DecidableEq, Repr

namespace CommandName

def all : List CommandName := [analyze, policies, config]

def name : CommandName → String
  | analyze => "analyze"
  | policies => "policies"
  | config => "config"

def ofName? (name : String) : Option CommandName :=
  all.find? (·.name = name)

def arity : CommandName → Nat
  | analyze => 1
  | policies => 0
  | config => 0

end CommandName

inductive Command where
  | analyze (file : String) (method : Option String) (callGraph : Bool)
  | policies
  | config
  deriving DecidableEq, Repr

inductive Topic where
  | tool
  | command (name : CommandName)
  | help
  deriving DecidableEq, Repr

structure Overrides where
  policy : Option String := none
  depth : Option Nat := none
  heapDepth : Option Nat := none
  workers : Option Nat := none
  recency : Option Bool := none
  timeoutMs : Option Nat := none
  deriving DecidableEq, Repr

inductive Request where
  | run (overrides : Overrides) (command : Command)
  | explain (topic : Topic)
  | version
  deriving DecidableEq, Repr

/-! ## Words -/

inductive Inquiry where
  | help
  | version
  deriving DecidableEq, Repr

inductive Word where
  | option (name : String) (value : String)
  | flag (name : String)
  | operand (value : String)
  | inquiry (about : Inquiry)
  deriving DecidableEq, Repr

/-- The options that take a value, those that take none, and those that ask for something. -/
structure Vocabulary where
  options : List String
  flags : List String
  inquiries : List (String × Inquiry)

def looksLikeOption (argument : String) : Bool :=
  match argument.toList with
  | '-' :: _ :: _ => true
  | _ => false

def splitOption (argument : String) : String × Option String :=
  match argument.toList.span (· ≠ '=') with
  | (name, _ :: value) => (String.ofList name, some (String.ofList value))
  | (name, []) => (String.ofList name, none)

def bareOption? (vocabulary : Vocabulary) (name : String) (rest : List String) :
    Option (Word × List String) :=
  match vocabulary.inquiries.lookup name with
  | some about => some (.inquiry about, rest)
  | none =>
      if vocabulary.flags.contains name then
        some (.flag name, rest)
      else if vocabulary.options.contains name then
        match rest with
        | [] => none
        | value :: rest => if looksLikeOption value then none else some (.option name value, rest)
      else
        none

def nextWord? (vocabulary : Vocabulary) : List String → Option (Word × List String)
  | [] => none
  | argument :: rest =>
      if looksLikeOption argument then
        match splitOption argument with
        | (name, some value) =>
            if vocabulary.options.contains name then some (.option name value, rest) else none
        | (name, none) => bareOption? vocabulary name rest
      else
        some (.operand argument, rest)

private theorem bareOption?_length_le {vocabulary : Vocabulary} {name : String}
    {rest left : List String} {word : Word}
    (h : bareOption? vocabulary name rest = some (word, left)) : left.length ≤ rest.length := by
  unfold bareOption? at h
  grind

theorem nextWord?_length_lt {vocabulary : Vocabulary} {arguments left : List String} {word : Word}
    (h : nextWord? vocabulary arguments = some (word, left)) :
    left.length < arguments.length := by
  cases arguments with
  | nil => simp [nextWord?] at h
  | cons argument rest =>
      have shorter : left.length ≤ rest.length := by
        simp only [nextWord?] at h
        split at h
        · split at h
          · split at h <;> simp_all
          · exact bareOption?_length_le h
        · simp_all
      simpa using Nat.lt_succ_of_le shorter

/-- The words of a command line up to the first inquiry.  After `--` everything is an operand. -/
def words? (vocabulary : Vocabulary) (arguments : List String) : Option (List Word) :=
  match arguments with
  | [] => some []
  | "--" :: operands => some (operands.map .operand)
  | argument :: others =>
      match _h : nextWord? vocabulary (argument :: others) with
      | none => none
      | some (.inquiry about, _) => some [.inquiry about]
      | some (word, rest) => (words? vocabulary rest).map (word :: ·)
termination_by arguments.length
decreasing_by exact nextWord?_length_lt _h

/-- The words before the first operand, and that operand with the arguments after it.  An inquiry
ends the command line. -/
def leading? (vocabulary : Vocabulary) (arguments : List String) :
    Option (List Word × Option (String × List String)) :=
  match arguments with
  | [] => some ([], none)
  | "--" :: _ => none
  | argument :: others =>
      match _h : nextWord? vocabulary (argument :: others) with
      | none => none
      | some (.inquiry about, _) => some ([.inquiry about], none)
      | some (.operand name, rest) => some ([], some (name, rest))
      | some (word, rest) =>
          (leading? vocabulary rest).map fun (words, operand) => (word :: words, operand)
termination_by arguments.length
decreasing_by exact nextWord?_length_lt _h

/-! ## Settings -/

def settingOptions : List String :=
  ["--policy", "--depth", "--heap-depth", "--workers", "--recency", "--timeout-ms"]

def number? (text : String) : Option Nat :=
  (Text.decimal? text.toList).filter (· < 1 <<< 64)

def truth? : String → Option Bool
  | "true" => some true
  | "false" => some false
  | _ => none

def single? (words : List Word) (name : String) : Option (Option String) :=
  let given := words.filterMap fun
    | .option other value => if other = name then some value else none
    | _ => none
  match given with
  | [] => some none
  | [value] => some (some value)
  | _ => none

def overrides? (words : List Word) : Option Overrides := do
  let number := fun (name : String) => do (← single? words name).mapM number?
  pure {
    policy := ← single? words "--policy"
    depth := ← number "--depth"
    heapDepth := ← number "--heap-depth"
    workers := ← number "--workers"
    recency := ← do (← single? words "--recency").mapM truth?
    timeoutMs := ← number "--timeout-ms" }

/-- Settings after the command go before those in front of it. -/
def Overrides.orElse (overrides earlier : Overrides) : Overrides :=
  { policy := overrides.policy <|> earlier.policy
    depth := overrides.depth <|> earlier.depth
    heapDepth := overrides.heapDepth <|> earlier.heapDepth
    workers := overrides.workers <|> earlier.workers
    recency := overrides.recency <|> earlier.recency
    timeoutMs := overrides.timeoutMs <|> earlier.timeoutMs }

def Overrides.apply (overrides : Overrides) (config : Config) : Config :=
  { config with
    policy := overrides.policy.getD config.policy
    depth := overrides.depth.getD config.depth
    heapDepth := overrides.heapDepth.getD config.heapDepth
    workers := overrides.workers.getD config.workers
    recency := overrides.recency.getD config.recency
    timeoutMs := overrides.timeoutMs <|> config.timeoutMs }

/-! ## Commands -/

structure Details where
  overrides : Overrides
  operands : List String
  method : Option String
  callGraph : Bool
  deriving DecidableEq, Repr

def operands (words : List Word) : List String :=
  words.filterMap fun
    | .operand value => some value
    | _ => none

def details? (name : CommandName) (words : List Word) : Option Details := do
  let operands := operands words
  let callGraph := words.filter (· = .flag "--call-graph")
  if operands.length > name.arity || operands.contains "" || callGraph.length > 1 then none
  else pure ⟨← overrides? words, operands, ← single? words "--method", !callGraph.isEmpty⟩

def command? (name : CommandName) (details : Details) : Option Command :=
  match name, details.operands with
  | .analyze, [file] => some (.analyze file details.method details.callGraph)
  | .analyze, _ => none
  | .policies, _ => some .policies
  | .config, _ => some .config

def helpInquiries : List (String × Inquiry) :=
  [("-h", .help), ("--help", .help)]

def toolVocabulary : Vocabulary :=
  ⟨settingOptions, [], helpInquiries ++ [("-V", .version), ("--version", .version)]⟩

def CommandName.vocabulary : CommandName → Vocabulary
  | .analyze => ⟨"--method" :: settingOptions, ["--call-graph"], helpInquiries⟩
  | _ => ⟨settingOptions, [], helpInquiries⟩

def isInquiry : Word → Bool
  | .inquiry _ => true
  | _ => false

def topic? : List String → Option Topic
  | [] => some .tool
  | ["help"] => some .help
  | [name] => (CommandName.ofName? name).map .command
  | _ => none

def commandRequest? (earlier : Overrides) (name : CommandName) (arguments : List String) :
    Option Request := do
  let words ← words? name.vocabulary arguments
  let details ← details? name words
  if words.any isInquiry then
    pure (.explain (.command name))
  else
    pure (.run (details.overrides.orElse earlier) (← command? name details))

def request? (arguments : List String) : Option Request := do
  let (words, command) ← leading? toolVocabulary arguments
  let earlier ← overrides? words
  match command with
  | some ("help", names) => (topic? names).map .explain
  | some (name, rest) => commandRequest? earlier (← CommandName.ofName? name) rest
  | none =>
      match words.getLast? with
      | some (.inquiry .help) => pure (.explain .tool)
      | some (.inquiry .version) => pure .version
      | _ => none

end ObjectFlow.CommandLine
