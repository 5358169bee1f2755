import ObjectFlow.CommandLine.Arguments

/-!
# Help pages

A page says what a topic is about and how to use it, and lists its commands,
its operands and its options.  The descriptions of a list start in one column.
-/

namespace ObjectFlow.CommandLine

def toolName : String := "pointsto"

def versionLine : String := s!"{toolName} 0.1.0"

structure Listing where
  title : String
  entries : List (String × String)
  deriving DecidableEq, Repr

structure Page where
  summary : String
  usage : String
  listings : List Listing
  deriving DecidableEq, Repr

namespace Listing

def width (listing : Listing) : Nat :=
  listing.entries.foldl (fun widest entry => max widest entry.1.length) 0

/-- Every entry stands on one line; a term without a description keeps its padding. -/
def lines (listing : Listing) : List String :=
  s!"{listing.title}:" :: listing.entries.map fun (term, description) =>
    let padding := String.ofList (List.replicate (listing.width - term.length) ' ')
    s!"  {term}{padding}  {description}"

end Listing

def Page.lines (page : Page) : List String :=
  [page.summary, "", s!"Usage: {toolName}{page.usage}"] ++
    page.listings.flatMap fun listing => "" :: listing.lines

/-! ## Contents -/

def CommandName.summary : CommandName → String
  | .analyze => "Solve the program described by an XML file and print the points-to sets"
  | .policies => "List the registered heap abstraction policies"
  | .config => "Print the stored configuration"

def helpSummary : String := "Print this message or the help of the given subcommand(s)"

def toolSummary : String :=
  "Whole-program, context-sensitive points-to analysis over constraint statements"

def commandListing : Listing :=
  ⟨"Commands",
    CommandName.all.map (fun command => (command.name, command.summary)) ++
      [("help", helpSummary)]⟩

def policySetting : String × String :=
  ("    --policy <POLICY>", "Heap abstraction policy (see `policies`)")

def depthSetting : String × String :=
  ("    --depth <DEPTH>", "Maximum method context length")

def laterSettings : List (String × String) :=
  [("    --heap-depth <HEAP_DEPTH>", "Maximum heap context length"),
    ("    --workers <WORKERS>", "Worker threads, 0 for one per core"),
    ("    --recency <RECENCY>", "[possible values: true, false]"),
    ("    --timeout-ms <TIMEOUT_MS>", "")]

def helpOption : String × String := ("-h, --help", "Print help")

def CommandName.page : CommandName → Page
  | .analyze =>
      ⟨CommandName.analyze.summary, " analyze [OPTIONS] <FILE>",
        [⟨"Arguments", [("<FILE>", "")]⟩,
          ⟨"Options",
            [("    --method <METHOD>",
                "Only print variables of methods whose qualified name starts with this"),
              policySetting,
              ("    --call-graph", "Also print the context-sensitive call graph"),
              depthSetting] ++ laterSettings ++ [helpOption]⟩]⟩
  | command =>
      ⟨command.summary, s!" {command.name} [OPTIONS]",
        [⟨"Options", policySetting :: depthSetting :: laterSettings ++ [helpOption]⟩]⟩

def Topic.page : Topic → Page
  | .tool =>
      ⟨toolSummary, " [OPTIONS] <COMMAND>",
        [commandListing,
          ⟨"Options",
            policySetting :: depthSetting :: laterSettings ++
              [helpOption, ("-V, --version", "Print version")]⟩]⟩
  | .command name => name.page
  | .help =>
      ⟨helpSummary, " help [COMMAND]...",
        [⟨"Arguments", [("[COMMAND]...", "Print help for the subcommand(s)")]⟩]⟩

end ObjectFlow.CommandLine
