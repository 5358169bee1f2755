import ObjectFlow.CommandLine.Arguments
import ObjectFlow.CommandLine.Basic
import ObjectFlow.CommandLine.Help
import ObjectFlow.CommandLine.Settings
import ObjectFlow.Config
import ObjectFlow.Context
import ObjectFlow.ControlFlow
import ObjectFlow.Declaration.Basic
import ObjectFlow.Declaration.Hierarchy
import ObjectFlow.Declaration.Reader
import ObjectFlow.Error
import ObjectFlow.Evaluation.Basic
import ObjectFlow.Evaluation.Call
import ObjectFlow.Evaluation.Statement
import ObjectFlow.Graph.Basic
import ObjectFlow.Graph.Delta
import ObjectFlow.Graph.Node
import ObjectFlow.Hierarchy.Basic
import ObjectFlow.Hierarchy.Builder
import ObjectFlow.Hierarchy.Query
import ObjectFlow.Interner
import ObjectFlow.KeySet.Basic
import ObjectFlow.KeySet.BitVector
import ObjectFlow.KeySet.Hashed
import ObjectFlow.Main
import ObjectFlow.Markup.Attribute
import ObjectFlow.Markup.Cursor
import ObjectFlow.Markup.Declaration
import ObjectFlow.Markup.Doctype
import ObjectFlow.Markup.Name
import ObjectFlow.Markup.Node
import ObjectFlow.Markup.Reader
import ObjectFlow.Markup.Reference
import ObjectFlow.Markup.Source
import ObjectFlow.Markup.Token
import ObjectFlow.OrderedSet
import ObjectFlow.Policy
import ObjectFlow.Program.Basic
import ObjectFlow.Program.Loader
import ObjectFlow.Proofs.ControlFlow.Ageing
import ObjectFlow.Proofs.ControlFlow.ReachingWrites
import ObjectFlow.Proofs.Decision
import ObjectFlow.Proofs.Effect
import ObjectFlow.Proofs.Evaluation.Call
import ObjectFlow.Proofs.Evaluation.Degree
import ObjectFlow.Proofs.Evaluation.Demand
import ObjectFlow.Proofs.Evaluation.Failing
import ObjectFlow.Proofs.Evaluation.Finite
import ObjectFlow.Proofs.Evaluation.Incremental
import ObjectFlow.Proofs.Evaluation.Logic
import ObjectFlow.Proofs.Evaluation.Operation
import ObjectFlow.Proofs.Evaluation.Origin
import ObjectFlow.Proofs.Evaluation.Produce
import ObjectFlow.Proofs.Evaluation.Reading
import ObjectFlow.Proofs.Evaluation.Rounds
import ObjectFlow.Proofs.Evaluation.Safety
import ObjectFlow.Proofs.Evaluation.Simulation
import ObjectFlow.Proofs.Evaluation.Slots
import ObjectFlow.Proofs.Evaluation.Statement
import ObjectFlow.Proofs.Evaluation.Transfer
import ObjectFlow.Proofs.Graph.Delta
import ObjectFlow.Proofs.Graph.Fact
import ObjectFlow.Proofs.Graph.Growth
import ObjectFlow.Proofs.Graph.Lattice
import ObjectFlow.Proofs.Graph.Objects
import ObjectFlow.Proofs.Hierarchy.Acceptance
import ObjectFlow.Proofs.Hierarchy.Building
import ObjectFlow.Proofs.Hierarchy.ByName
import ObjectFlow.Proofs.Hierarchy.Chains
import ObjectFlow.Proofs.Hierarchy.ClassOrder
import ObjectFlow.Proofs.Hierarchy.Consistency
import ObjectFlow.Proofs.Hierarchy.Declared
import ObjectFlow.Proofs.Hierarchy.Dispatch
import ObjectFlow.Proofs.Hierarchy.Inheritance
import ObjectFlow.Proofs.Hierarchy.Interfaces
import ObjectFlow.Proofs.Hierarchy.Linking
import ObjectFlow.Proofs.Hierarchy.Ranges
import ObjectFlow.Proofs.Hierarchy.Sketching
import ObjectFlow.Proofs.Hierarchy.Spelling
import ObjectFlow.Proofs.Hierarchy.Subtyping
import ObjectFlow.Proofs.Interning
import ObjectFlow.Proofs.KeySet.Growth
import ObjectFlow.Proofs.KeySet.Membership
import ObjectFlow.Proofs.KeySet.Operations
import ObjectFlow.Proofs.Policy
import ObjectFlow.Proofs.Program.Binding
import ObjectFlow.Proofs.Program.Legible
import ObjectFlow.Proofs.Program.Lookup
import ObjectFlow.Proofs.Program.Naming
import ObjectFlow.Proofs.Program.Placement
import ObjectFlow.Proofs.Program.Plain
import ObjectFlow.Proofs.Program.Provenance
import ObjectFlow.Proofs.Program.Refusing
import ObjectFlow.Proofs.Program.Registering
import ObjectFlow.Proofs.Program.Scoping
import ObjectFlow.Proofs.Program.Substitution
import ObjectFlow.Proofs.Program.TypeNames
import ObjectFlow.Proofs.Program.Variables
import ObjectFlow.Proofs.Reachability
import ObjectFlow.Proofs.Solver.Aliasing
import ObjectFlow.Proofs.Solver.Answers
import ObjectFlow.Proofs.Solver.CallGraph
import ObjectFlow.Proofs.Solver.Canonical
import ObjectFlow.Proofs.Solver.Depth
import ObjectFlow.Proofs.Solver.Description
import ObjectFlow.Proofs.Solver.Erasure
import ObjectFlow.Proofs.Solver.Exceptions
import ObjectFlow.Proofs.Solver.Failures
import ObjectFlow.Proofs.Solver.Finished
import ObjectFlow.Proofs.Solver.Fixpoint
import ObjectFlow.Proofs.Solver.Flattening
import ObjectFlow.Proofs.Solver.HeapTyping
import ObjectFlow.Proofs.Solver.Invariant
import ObjectFlow.Proofs.Solver.Limits
import ObjectFlow.Proofs.Solver.Parameters
import ObjectFlow.Proofs.Solver.Questions
import ObjectFlow.Proofs.Solver.Queue
import ObjectFlow.Proofs.Solver.Reachability
import ObjectFlow.Proofs.Solver.Recency
import ObjectFlow.Proofs.Solver.Refinement
import ObjectFlow.Proofs.Solver.Saturation
import ObjectFlow.Proofs.Solver.Soundness
import ObjectFlow.Proofs.Solver.Universe
import ObjectFlow.Proofs.Text.TypeName
import ObjectFlow.Reachability
import ObjectFlow.Solver.Basic
import ObjectFlow.Solver.Results
import ObjectFlow.Statement
import ObjectFlow.Text.Blank
import ObjectFlow.Text.Encoding
import ObjectFlow.Text.Numeral
import ObjectFlow.Text.Printable
import ObjectFlow.Text.Quoted
import ObjectFlow.Text.Utf8
import ObjectFlow.Variable
