import ObjectFlow.Proofs.Hierarchy.Ranges
import ObjectFlow.Proofs.Program.Placement

/-!
# Where the statements of a loaded program come from

A loaded program has the calls that its bodies declare, each with the routing of
what it throws, and no statements but those that its bodies declare.  Every
method has a summary, of the variables that its name and its parameters fix.
-/

namespace ObjectFlow

structure Program.Sourced (declared : Declaration.Program) (program : Program) : Prop where
  linked : program.hierarchy.Linked
  tidy : program.variableTable.Tidy program.hierarchy
  statements : ∀ statement ∈ program.statements,
    statement.Sourced declared program.hierarchy program.variableTable
  reads : ∀ statement ∈ program.statements, ∀ declared ∈ statement.action.used,
    program.variableTable.Holds declared
  writes : ∀ statement ∈ program.statements, ∀ write ∈ statement.writes,
    program.variableTable.Holds write.1
  distinct : program.statements.Pairwise Statement.Apart
  summaries : ∀ id summary, program.summary? id = some summary →
    summary.Described program.hierarchy program.variableTable id
  initializers : ∀ method ∈ program.initializers, program.hierarchy.IsInitializer method
  summarized : ∀ id ∈ program.hierarchy.methodIds, ∃ summary, program.summary? id = some summary
  elements : ∀ id body, (id, body) ∈ declared.bodies program.hierarchy →
    ∀ site element operands, body.Declares site element operands → element ≠ .return →
      ∃ point action, ⟨id, site, point, action⟩ ∈ program.statements ∧
        action.Means program.hierarchy program.variableTable id body site operands element ∧
        ∀ call, action = .call call → ∃ handlers summary,
          ⟨id, site + 1, none, .raise call.exception handlers summary⟩ ∈ program.statements

theorem Declaration.load_sourced {declared : Declaration.Program} {program : ObjectFlow.Program}
    (loaded : declared.load = .ok program) : program.Sourced declared := by
  obtain ⟨registrar, placed, finishes, registers⟩ := load_registrar loaded
  obtain ⟨hierarchy, table, _, statements, summaries, initializers, all⟩ := finishes
  refine ⟨?_, ?_, ?_, ?_, ?_, ?_, ?_, ?_, ?_, ?_⟩
  · exact hierarchy ▸ placed.linked
  · rw [hierarchy, table]
    exact placed.tidy
  · rw [hierarchy, table, statements]
    exact placed.sourced
  · rw [table, statements]
    exact fun statement member => (placed.statements statement member).reads
  · rw [table, statements]
    exact fun statement member => (placed.statements statement member).writes
  · exact statements ▸ placed.distinct
  · intro id summary found
    rw [Program.summary?, summaries] at found
    rw [hierarchy, table]
    exact placed.summaries _ (mem_of_lookup found)
  · rw [initializers, hierarchy]
    exact placed.initializers
  · intro id listed
    rw [Program.summary?, summaries]
    exact all id (hierarchy ▸ listed)
  · rw [hierarchy, table, statements]
    exact registers

theorem Declaration.load_names {declared : Declaration.Program} {program : ObjectFlow.Program}
    (loaded : declared.load = .ok program) :
    (∀ type initializers, program.hierarchy.classInitializersFor? type = some initializers →
      ∀ method ∈ initializers, program.hierarchy.Names method) ∧
    ∀ statement ∈ program.statements, ∀ method ∈ statement.action.triggered,
      program.hierarchy.Names method := by
  have sourced := load_sourced loaded
  refine ⟨fun type initializers found method member => ?_, fun statement member => ?_⟩
  · exact Hierarchy.names_of_linked sourced.linked found member
  · exact (sourced.statements statement member).triggered

/-! ## Sites -/

def Statement.callSite (statement : Statement) : CallSite := ⟨statement.method, statement.site⟩

def Program.idAt? (program : Program) (site : CallSite) : Option StatementId :=
  program.statements.findIdx? fun statement => statement.callSite = site

namespace Program.Sourced

variable {declared : Declaration.Program} {program : Program} {statement other : Statement}
  {call : Call} {body : Declaration.Method} {operands : Declaration.Operands}

theorem exists_summary (sourced : program.Sourced declared) {id : MethodId} {method : Method}
    (isMethod : program.hierarchy.method? id = some method) :
    ∃ summary, program.summary? id = some summary :=
  sourced.summarized id (List.mem_range.mpr (List.getElem?_eq_some_iff.mp isMethod).1)

theorem exists_method? (sourced : program.Sourced declared)
    (member : statement ∈ program.statements) :
    ∃ method, program.hierarchy.method? statement.method = some method := by
  have here := sourced.statements statement member
  rcases here.meant with ⟨_, _, _, isBody, _⟩ | ⟨_, _, _, isRaise⟩
  · exact Declaration.Program.method?_of_body isBody
  · obtain ⟨_, _, isBody, _⟩ := here.raise _ _ _ isRaise
    exact Declaration.Program.method?_of_body isBody

theorem exists_describeStatement? (sourced : program.Sourced declared) {id : StatementId}
    (found : program.statement? id = some statement) :
    ∃ text, program.describeStatement? id = some text := by
  obtain ⟨_, isMethod⟩ := sourced.exists_method? (List.mem_of_getElem? found)
  obtain ⟨owner, isOwner⟩ := sourced.linked.names_of_method? isMethod
  unfold Program.describeStatement? Program.describeMethod?
  simp only [found, isOwner, Option.bind_eq_bind, Option.bind_some]
  exact ⟨_, rfl⟩

theorem exists_describeVariable? (sourced : program.Sourced declared) {found : Variable}
    (holds : program.variableTable.Holds found) :
    ∃ name, program.describeVariable? found.id = some name := by
  obtain ⟨id, origin, isEntry⟩ := holds
  have suits := sourced.tidy id origin found isEntry
  have known := suits.known
  have isKey : program.variableTable.key? found.id = some origin := by
    rw [suits.id, Interner.key?, isEntry, Option.map_some]
  unfold Program.describeVariable? VariableTable.describe?
  rw [isKey]
  cases origin with
  | staticField field =>
      obtain ⟨_, isField⟩ := known
      obtain ⟨_, isName⟩ := (sourced.linked.hasType_of_field? isField).2.exists_typeName?
      simp only [isField, isName, Option.bind_eq_bind, Option.bind_some]
      exact ⟨_, rfl⟩
  | _ =>
      obtain ⟨_, isMethod⟩ := known
      obtain ⟨_, isName⟩ := sourced.linked.names_of_method? isMethod
      simp only [isName, Option.bind_eq_bind, Option.bind_some]
      exact ⟨_, rfl⟩

theorem eq_of_site (sourced : program.Sourced declared)
    (member : statement ∈ program.statements) (member' : other ∈ program.statements)
    (sameSite : statement.callSite = other.callSite) : statement = other := by
  by_contra differ
  exact sourced.distinct.forall member member' differ
    ⟨congrArg CallSite.caller sameSite, congrArg CallSite.site sameSite⟩

theorem idAt?_of_found (sourced : program.Sourced declared) {id : StatementId}
    (found : program.statement? id = some statement) :
    program.idAt? statement.callSite = some id := by
  obtain ⟨inRange, same⟩ := List.getElem?_eq_some_iff.mp found
  refine List.findIdx?_eq_some_iff_getElem.mpr ⟨inRange, by simp [same], fun other earlier => ?_⟩
  have apart := List.pairwise_iff_getElem.mp sourced.distinct other id (by omega) inRange earlier
  rw [same] at apart
  simpa [Statement.callSite, Statement.Apart] using apart

theorem described_of_callAt? (sourced : program.Sourced declared)
    (member : statement ∈ program.statements) (isCall : statement.action = .call call)
    (isBody : (statement.method, body) ∈ declared.bodies program.hierarchy)
    (found : body.callAt? statement.site = some operands) :
    call.Described program.hierarchy program.variableTable statement.method body operands
        statement.site ∧
      ∃ handlers summary, ⟨statement.method, statement.site + 1, none,
        .raise call.exception handlers summary⟩ ∈ program.statements := by
  obtain ⟨point, action, isThere, means, routes⟩ := sourced.elements _ body isBody _ .call operands
    (Declaration.Method.mem_of_callAt? found) nofun
  have same := sourced.eq_of_site isThere member rfl
  rw [← same] at isCall
  obtain rfl : action = .call call := isCall
  cases means with
  | call described => exact ⟨described, routes call rfl⟩

theorem call_described (sourced : program.Sourced declared)
    (member : statement ∈ program.statements) (isCall : statement.action = .call call) :
    ∃ body operands, (statement.method, body) ∈ declared.bodies program.hierarchy ∧
      body.callAt? statement.site = some operands ∧
      call.Described program.hierarchy program.variableTable statement.method body operands
        statement.site := by
  obtain ⟨body, operands, isBody, found⟩ := (sourced.statements statement member).call isCall
  exact ⟨body, operands, isBody, found,
    (sourced.described_of_callAt? member isCall isBody found).1⟩

end Program.Sourced

/-! ## Arguments -/

namespace Declaration

/-- The variable that a call of a body lists for a parameter of the method that it names, counted
over all its parameters.  There is none for a primitive parameter and for `_`. -/
def Method.argument? (hierarchy : Hierarchy) (table : VariableTable) (id : MethodId)
    (body : Method) (operands : Operands) (index : Nat) : Option Variable := do
  let callee ← (hierarchy.lookupMethod (← operands.method)).toOption
  let type ← (← hierarchy.method? callee).params[index]?
  let name ← (Text.splitList operands.args)[index]?
  if hierarchy.isReference? type = some true ∧ name ≠ "_" then
    body.named? hierarchy table id name
  else
    none

private theorem Method.argument?_of_described {hierarchy : Hierarchy} {table : VariableTable}
    {id : MethodId} {body : Method} {operands : Operands} {site : Nat} {call : Call}
    (described : call.Described hierarchy table id body operands site) (index : Nat) :
    body.argument? hierarchy table id operands index = call.args[index]?.join := by
  obtain ⟨name, method, isName, isCallee, isMethod, passes⟩ := described.args
  simp only [argument?, isName, isCallee, isMethod, Except.toOption, Option.bind_eq_bind,
    Option.bind_some]
  cases isType : method.params[index]? with
  | none =>
      have outside : call.args[index]? = none := by
        rw [List.getElem?_eq_none_iff] at isType ⊢
        exact passes.1 ▸ isType
      simp [outside]
  | some type =>
      obtain ⟨arg, isArg⟩ : ∃ arg, call.args[index]? = some arg := by
        have inside := (List.getElem?_eq_some_iff.mp isType).1
        exact ⟨_, List.getElem?_eq_getElem (passes.1 ▸ inside)⟩
      have here := passes.2 index type arg isType isArg
      rw [isArg]
      cases arg with
      | some arg =>
          obtain ⟨isReference, given, isGiven, other, isNamed⟩ := here
          simp [isGiven, isReference, other, isNamed]
      | none =>
          cases isGiven : (Text.splitList operands.args)[index]? with
          | none => simp
          | some given =>
              have skipped : ¬ (hierarchy.isReference? type = some true ∧ given ≠ "_") :=
                fun kept => kept.2 (here kept.1 given isGiven)
              simp only [Option.bind_some, if_neg skipped]
              rfl

def Program.argument? (declared : Program) (program : ObjectFlow.Program) (site : CallSite)
    (index : Nat) : Option Variable :=
  (declared.bodies program.hierarchy).findSome? fun (id, body) =>
    if id = site.caller then
      (body.callAt? site.site).bind fun operands =>
        body.argument? program.hierarchy program.variableTable id operands index
    else
      none

end Declaration

theorem Program.Sourced.argument?_eq {declared : Declaration.Program} {program : Program}
    (sourced : program.Sourced declared) {statement : Statement} {call : Call}
    (member : statement ∈ program.statements) (isCall : statement.action = .call call)
    (index : Nat) :
    declared.argument? program statement.callSite index = call.args[index]?.join := by
  have passed : ∀ {body operands}, (statement.method, body) ∈ declared.bodies program.hierarchy →
      body.callAt? statement.site = some operands → body.argument? program.hierarchy
        program.variableTable statement.method operands index = call.args[index]?.join := by
    intro body operands isBody found
    exact Declaration.Method.argument?_of_described
      (sourced.described_of_callAt? member isCall isBody found).1 index
  unfold Declaration.Program.argument?
  cases found : List.findSome? _ (declared.bodies program.hierarchy) with
  | none =>
      obtain ⟨body, operands, isBody, isFound, _⟩ := sourced.call_described member isCall
      have here := List.findSome?_eq_none_iff.mp found _ isBody
      simpa [Statement.callSite, isFound, passed isBody isFound, eq_comm] using here
  | some arg =>
      obtain ⟨⟨id, body⟩, isBody, here⟩ := List.exists_of_findSome?_eq_some found
      dsimp only at here
      split at here
      · next same =>
          subst same
          obtain ⟨operands, isFound, isArg⟩ := Option.bind_eq_some_iff.mp here
          rw [← isArg]
          exact passed isBody isFound
      · cases here

end ObjectFlow
