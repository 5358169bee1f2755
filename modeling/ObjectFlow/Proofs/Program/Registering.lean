import Mathlib.Data.List.Pairwise
import ObjectFlow.Proofs.Program.Lookup
import ObjectFlow.Proofs.Program.Naming
import ObjectFlow.Proofs.Program.Variables

/-!
# Registering variables, points and statements

While a program is loaded, variables and program points are only ever added.  So
what a computation answers about them stays good when others follow it, and
`Yields` says of a computation what it answers at the registrar it leaves.  The
statements of a registrar are placed: each has a site of its own and the point
of that site, and its variables are in the table.
-/

namespace ObjectFlow

open Effect

/-! ## Variables -/

def VariableOrigin.Known (hierarchy : Hierarchy) : VariableOrigin → Prop
  | .staticField field => ∃ found, hierarchy.field? field = some found
  | .local method _ | .formal method _ | .result method | .exception method
  | .callException method _ => ∃ found, hierarchy.method? method = some found

structure Variable.Suits (hierarchy : Hierarchy) (id : VariableId) (origin : VariableOrigin)
    (declared : Variable) : Prop where
  known : origin.Known hierarchy
  id : declared.id = id
  singleton : declared.singleton = origin.isSingleton
  plain : origin.isLocal = false → declared.flowSensitive = false

namespace VariableTable

def Holds (table : VariableTable) (declared : Variable) : Prop :=
  ∃ id origin, table.entry? id = some (origin, declared)

def Tidy (hierarchy : Hierarchy) (table : VariableTable) : Prop :=
  ∀ id origin declared, table.entry? id = some (origin, declared) →
    declared.Suits hierarchy id origin

def HoldsPlain (table : VariableTable) (declared : Variable) : Prop :=
  table.Holds declared ∧ declared.flowSensitive = false

variable {hierarchy : Hierarchy} {table later last : VariableTable} {declared : Variable}
  {origin : VariableOrigin}

theorem Holds.grow (holds : table.Holds declared) (grows : table.Grows later) :
    later.Holds declared := by
  obtain ⟨id, origin, found⟩ := holds
  exact ⟨id, origin, grows id _ found⟩

theorem HoldsPlain.grow (holds : table.HoldsPlain declared) (grows : table.Grows later) :
    later.HoldsPlain declared :=
  ⟨holds.1.grow grows, holds.2⟩

theorem holds_of_find? (found : table.find? origin = some declared) : table.Holds declared := by
  obtain ⟨id, isEntry⟩ := find?_eq_some_iff.mp found
  exact ⟨id, origin, isEntry⟩

theorem Assignable.holds (assignable : table.Assignable declared) : table.Holds declared := by
  obtain ⟨_, found, _⟩ := assignable
  exact holds_of_find? found

theorem Tidy.suits (tidy : table.Tidy hierarchy) (found : table.find? origin = some declared) :
    ∃ id, declared.Suits hierarchy id origin := by
  obtain ⟨id, isEntry⟩ := find?_eq_some_iff.mp found
  exact ⟨id, tidy id origin declared isEntry⟩

theorem Tidy.holdsPlain (tidy : table.Tidy hierarchy) (found : table.find? origin = some declared)
    (other : origin.isLocal = false) : table.HoldsPlain declared := by
  obtain ⟨_, suits⟩ := tidy.suits found
  exact ⟨holds_of_find? found, suits.plain other⟩

theorem Tidy.origin_eq (tidy : table.Tidy hierarchy) {origin' : VariableOrigin}
    {declared' : Variable} (found : table.find? origin = some declared)
    (found' : table.find? origin' = some declared')
    (same : declared.id = declared'.id) : origin = origin' := by
  obtain ⟨id, isEntry⟩ := find?_eq_some_iff.mp found
  obtain ⟨id', isEntry'⟩ := find?_eq_some_iff.mp found'
  obtain rfl : id = id' := by
    rw [← (tidy _ _ _ isEntry).id, same, (tidy _ _ _ isEntry').id]
  cases isEntry.symm.trans isEntry'
  rfl

theorem make_spec (tidy : table.Tidy hierarchy) (origin : VariableOrigin)
    (isKnown : origin.Known hierarchy) (type : TypeId) (flowSensitive : Bool) :
    table.Grows (table.make origin type flowSensitive).2 ∧
      (table.make origin type flowSensitive).2.Tidy hierarchy ∧
      (table.make origin type flowSensitive).2.find? origin =
        some (table.make origin type flowSensitive).1 := by
  let fresh : Variable :=
    ⟨table.size, type, origin.isSingleton, origin.isLocal && flowSensitive⟩
  rcases Interner.intern_cases table origin fresh with ⟨id, found, same⟩ |
    ⟨_, grown, made, entries⟩
  · obtain ⟨⟨other, known⟩, isEntry, isKey⟩ := Option.map_eq_some_iff.mp found
    obtain rfl : other = origin := isKey
    have result : table.make other type flowSensitive = (known, table) := by
      simp only [make]
      rw [same]
      simp [Interner.payload?, isEntry]
    rw [result]
    exact ⟨.refl table, tidy, find?_eq_some_iff.mpr ⟨id, isEntry⟩⟩
  · have isEntry := Interner.entry?_append_size entries
    have result : table.make origin type flowSensitive = (fresh, grown) := by
      simp only [make]
      rw [made]
      simp [Interner.payload?, isEntry, fresh]
    rw [result]
    refine ⟨fun id entry => Interner.entry?_append_of_some entries, ?_,
      find?_eq_some_iff.mpr ⟨_, isEntry⟩⟩
    intro id origin' declared found
    rcases Interner.entry?_append_cases entries found with earlier | ⟨rfl, same⟩
    · exact tidy id origin' declared earlier
    · cases same
      exact ⟨isKnown, rfl, rfl, fun other => by simp [fresh, other]⟩

structure Made (hierarchy : Hierarchy) (table later : VariableTable)
    (origins : List (Option VariableOrigin)) (made : List (Option Variable)) : Prop where
  grows : table.Grows later
  tidy : later.Tidy hierarchy
  finds : List.Forall₂ later.Finds origins made

private theorem Made.nil (tidy : table.Tidy hierarchy) : Made hierarchy table table [] [] :=
  ⟨.refl table, tidy, .nil⟩

theorem Made.none (tidy : table.Tidy hierarchy) : Made hierarchy table table [none] [none] :=
  ⟨.refl table, tidy, .cons trivial .nil⟩

theorem Made.append {first second : List (Option VariableOrigin)}
    {madeFirst madeSecond : List (Option Variable)}
    (made : Made hierarchy table later first madeFirst)
    (more : Made hierarchy later last second madeSecond) :
    Made hierarchy table last (first ++ second) (madeFirst ++ madeSecond) := by
  refine ⟨made.grows.trans more.grows, more.tidy, List.rel_append ?_ more.finds⟩
  exact made.finds.imp fun _ _ finds => finds.grow more.grows

theorem made_make (tidy : table.Tidy hierarchy) (origin : VariableOrigin)
    (isKnown : origin.Known hierarchy) (type : TypeId) (flowSensitive : Bool) :
    Made hierarchy table (table.make origin type flowSensitive).2 [some origin]
      [some (table.make origin type flowSensitive).1] := by
  obtain ⟨grows, tidy', found⟩ := make_spec tidy origin isKnown type flowSensitive
  exact ⟨grows, tidy', .cons found .nil⟩

private theorem made_parameters {method : MethodId} {index : Nat} {types : List TypeId}
    {formals : List (Option Variable)} (tidy : table.Tidy hierarchy)
    (isKnown : ∃ found, hierarchy.method? method = some found)
    (found : table.parameters hierarchy method index types = some (formals, later)) :
    Made hierarchy table later (hierarchy.parameterOrigins method index types) formals := by
  induction types generalizing table index formals with
  | nil =>
      cases found
      exact .nil tidy
  | cons type types ih =>
      unfold parameters at found
      obtain ⟨isReference, kind, found⟩ := Option.bind_eq_some_iff.mp found
      have origins : hierarchy.parameterOrigins method index (type :: types) =
          [if hierarchy.isReference? type = some true then some (.formal method index) else none] ++
            hierarchy.parameterOrigins method (index + 1) types := by
        simp [Hierarchy.parameterOrigins]
      rw [origins, kind]
      cases isReference with
      | true =>
          obtain ⟨⟨others, last⟩, rest, same⟩ := Option.bind_eq_some_iff.mp found
          cases same
          have here := made_make tidy (.formal method index) isKnown type false
          exact here.append (ih here.tidy rest)
      | false =>
          obtain ⟨⟨others, last⟩, rest, same⟩ := Option.bind_eq_some_iff.mp found
          cases same
          exact (Made.none tidy).append (ih tidy rest)

/-! ### Summaries in steps -/

def receiver (table : VariableTable) (id : MethodId) (method : Method) :
    List (Option Variable) × VariableTable :=
  if method.isStatic then ([], table)
  else
    let made := table.make (.formal id 0) method.declaring false
    ([some made.1], made.2)

def returned? (table : VariableTable) (hierarchy : Hierarchy) (id : MethodId) :
    (returns : Option TypeId) → Option (Option Variable × VariableTable)
  | none => some (none, table)
  | some type => (hierarchy.isReference? type).map fun isReference =>
      if isReference then
        let made := table.make (.result id) type false
        (some made.1, made.2)
      else
        (none, table)

theorem summary?_eq (table : VariableTable) (hierarchy : Hierarchy) (id : MethodId) :
    table.summary? hierarchy id = (hierarchy.method? id).bind fun method =>
      let received := table.receiver id method
      (received.2.parameters hierarchy id received.1.length method.params).bind fun given =>
        (given.2.returned? hierarchy id method.returns).map fun returned =>
          let thrown := returned.2.make (.exception id) TypeTable.throwableType false
          (⟨id, received.1 ++ given.1, returned.1, thrown.1⟩, thrown.2) := by
  unfold summary?
  refine congrArg (Option.bind (hierarchy.method? id)) (funext fun method => ?_)
  show ((table.receiver id method).2.parameters hierarchy id (table.receiver id method).1.length
    method.params).bind _ = _
  refine congrArg (Option.bind _) (funext fun given => ?_)
  obtain ⟨params, given⟩ := given
  unfold returned?
  dsimp only
  cases method.returns with
  | none => rfl
  | some type =>
      dsimp only
      cases hierarchy.isReference? type with
      | none => rfl
      | some isReference => cases isReference <;> rfl

private theorem summary?_spec {id : MethodId} {summary : MethodSummary}
    (tidy : table.Tidy hierarchy) (found : table.summary? hierarchy id = some (summary, later)) :
    table.Grows later ∧ later.Tidy hierarchy ∧ summary.Described hierarchy later id := by
  rw [summary?_eq] at found
  obtain ⟨method, isMethod, found⟩ := Option.bind_eq_some_iff.mp found
  obtain ⟨given, isGiven, found⟩ := Option.bind_eq_some_iff.mp found
  obtain ⟨returned, isReturned, same⟩ := Option.map_eq_some_iff.mp found
  cases same
  have isKnown : ∃ found, hierarchy.method? id = some found := ⟨method, isMethod⟩
  have received : Made hierarchy table given.2 (hierarchy.formalOrigins id method)
      ((table.receiver id method).1 ++ given.1) := by
    unfold receiver at isGiven ⊢
    unfold Hierarchy.formalOrigins
    split
    · next isStatic =>
        simp only [isStatic] at isGiven
        exact made_parameters tidy isKnown isGiven
    · next isInstance =>
        simp only [isInstance] at isGiven
        have here := made_make tidy (.formal id 0) isKnown method.declaring false
        exact here.append (made_parameters here.tidy isKnown isGiven)
  have result : ∃ origin, (∀ declared, returned.1 = some declared → origin = some (.result id)) ∧
      Made hierarchy given.2 returned.2 [origin] [returned.1] := by
    unfold returned? at isReturned
    split at isReturned
    · cases isReturned
      exact ⟨none, nofun, .none received.tidy⟩
    · obtain ⟨isReference, _, rfl⟩ := Option.map_eq_some_iff.mp isReturned
      cases isReference with
      | true =>
          have made := made_make received.tidy (.result id) isKnown
          exact ⟨some (.result id), fun _ _ => rfl, made _ _⟩
      | false => exact ⟨none, nofun, .none received.tidy⟩
  obtain ⟨origin, isOrigin, result⟩ := result
  have thrown := made_make result.tidy (.exception id) isKnown TypeTable.throwableType false
  have later := result.grows.trans thrown.grows
  refine ⟨received.grows.trans later, thrown.tidy, ⟨method, isMethod, ?_⟩, ?_, ?_⟩
  · exact received.finds.imp fun _ _ finds => finds.grow later
  · intro declared isResult
    obtain rfl := isOrigin declared isResult
    obtain ⟨finds, _⟩ := List.forall₂_cons.mp result.finds
    rw [show returned.1 = some declared from isResult] at finds
    exact thrown.grows.find? finds
  · exact (List.forall₂_cons.mp thrown.finds).1

end VariableTable

theorem MethodSummary.Described.plain {hierarchy : Hierarchy} {table : VariableTable}
    {id : MethodId} {summary : MethodSummary} (described : summary.Described hierarchy table id)
    (tidy : table.Tidy hierarchy) {declared : Variable} (member : some declared ∈ summary.slots) :
    table.HoldsPlain declared := by
  rcases List.mem_append.mp member with formal | other
  · obtain ⟨method, _, finds⟩ := described.formals
    obtain ⟨index, isFormal⟩ := List.mem_iff_getElem?.mp formal
    obtain ⟨origin, isOrigin, found⟩ := forall₂_getElem?_right finds isFormal
    cases origin with
    | none => cases found
    | some origin =>
        obtain rfl := Hierarchy.getElem?_formalOrigins isOrigin
        exact tidy.holdsPlain found rfl
  · simp only [List.mem_cons, Option.some.injEq, List.not_mem_nil, or_false] at other
    rcases other with isResult | rfl
    · exact tidy.holdsPlain (described.result declared isResult.symm) rfl
    · exact tidy.holdsPlain described.exception rfl

/-! ## Points -/

namespace PointGraph

def Grows (earlier later : PointGraph) : Prop :=
  ∀ (id : PointId) point, earlier.points[id]? = some point → later.points[id]? = some point

variable (graph : PointGraph)

theorem Grows.refl : graph.Grows graph :=
  fun _ _ found => found

theorem grows_push (added : Point) : graph.Grows (graph.push added).2 := by
  intro id point found
  show (graph.points ++ [added])[id]? = some point
  rw [List.getElem?_append_left (List.getElem?_eq_some_iff.mp found).1]
  exact found

private theorem grows_methodPoints (method : MethodId) :
    graph.Grows (graph.methodPoints method).2 := by
  unfold methodPoints
  split
  · exact .refl graph
  · exact fun id point found => grows_push _ _ id point (grows_push _ _ id point found)

private theorem grows_addSuccessor? {source target : PointId} {later : PointGraph}
    (found : graph.addSuccessor? source target = some later) : graph.Grows later := by
  unfold addSuccessor? at found
  split at found
  · split at found <;> cases found <;> exact .refl _
  · cases found

end PointGraph

/-! ## Statements -/

namespace Registrar

structure Extends (earlier later : Registrar) : Prop where
  hierarchy : later.hierarchy = earlier.hierarchy
  table : earlier.variableTable.Grows later.variableTable
  points : earlier.points.Grows later.points
  statements : earlier.statements ⊆ later.statements
  summaries : ∀ method summary, earlier.summaries.lookup method = some summary →
    later.summaries.lookup method = some summary

theorem Extends.refl (registrar : Registrar) : registrar.Extends registrar :=
  ⟨rfl, .refl _, .refl _, List.Subset.refl _, fun _ _ found => found⟩

theorem Extends.trans {earlier between later : Registrar} (first : earlier.Extends between)
    (second : between.Extends later) : earlier.Extends later where
  hierarchy := second.hierarchy.trans first.hierarchy
  table := first.table.trans second.table
  points id point found := second.points id point (first.points id point found)
  statements := List.Subset.trans first.statements second.statements
  summaries method summary found :=
    second.summaries method summary (first.summaries method summary found)

private theorem extends_table (registrar : Registrar) {later : VariableTable}
    (grows : registrar.variableTable.Grows later) :
    registrar.Extends { registrar with variableTable := later } :=
  { Extends.refl registrar with table := grows }

private theorem extends_points (registrar : Registrar) {later : PointGraph}
    (grows : registrar.points.Grows later) :
    registrar.Extends { registrar with points := later } :=
  { Extends.refl registrar with points := grows }

private theorem extends_statement (registrar : Registrar) (statement : Statement) :
    registrar.Extends { registrar with statements := registrar.statements ++ [statement] } :=
  { Extends.refl registrar with statements := List.subset_append_left _ _ }

private theorem extends_summary (registrar : Registrar) {later : VariableTable} (method : MethodId)
    (summary : MethodSummary) (grows : registrar.variableTable.Grows later) :
    registrar.Extends { registrar with
      variableTable := later, summaries := registrar.summaries ++ [(method, summary)] } :=
  { Extends.refl registrar with
    table := grows
    summaries := fun other known found => by
      rw [List.lookup_append, found]
      rfl }

end Registrar

/-- The statement's variables are in the table, its point is that of its site, and it reads and
writes no flow-sensitive variable without a point, handlers apart. -/
structure Statement.Placed (registrar : Registrar) (statement : Statement) : Prop where
  reads : ∀ declared ∈ statement.action.used, registrar.variableTable.Holds declared
  writes : ∀ write ∈ statement.writes, registrar.variableTable.Holds write.1
  unread : statement.point = none → ∀ declared ∈ statement.action.used,
    declared.flowSensitive = false
  unwritten : ∀ write ∈ statement.writes, write.2 = none →
    write.1.flowSensitive = false ∨ write.1 ∈ statement.action.handled
  point : ∀ point, statement.point = some point →
    registrar.points.points[point]? = some ⟨statement.method, .statement statement.site⟩

theorem Statement.Placed.extend {registrar later : Registrar} {statement : Statement}
    (placed : statement.Placed registrar) (grown : registrar.Extends later) :
    statement.Placed later where
  reads declared used := (placed.reads declared used).grow grown.table
  writes write member := (placed.writes write member).grow grown.table
  unread := placed.unread
  unwritten := placed.unwritten
  point point isPoint := grown.points _ _ (placed.point point isPoint)

def Statement.Apart (statement other : Statement) : Prop :=
  ¬ (statement.method = other.method ∧ statement.site = other.site)

instance : Std.Symm Statement.Apart where
  symm _ _ apart same := apart ⟨same.1.symm, same.2.symm⟩

structure Registrar.Placed (declared : Declaration.Program) (registrar : Registrar) : Prop where
  linked : registrar.hierarchy.Linked
  tidy : registrar.variableTable.Tidy registrar.hierarchy
  statements : ∀ statement ∈ registrar.statements, statement.Placed registrar
  sourced : ∀ statement ∈ registrar.statements,
    statement.Sourced declared registrar.hierarchy registrar.variableTable
  distinct : registrar.statements.Pairwise Statement.Apart
  summaries : ∀ entry ∈ registrar.summaries,
    entry.2.Described registrar.hierarchy registrar.variableTable entry.1
  initializers : ∀ method ∈ registrar.initializers, registrar.hierarchy.IsInitializer method

/-! ## Computations that extend the registrar -/

/-- A computation that starts at or after the base and succeeds extends the registrar and keeps
its statements placed, and its answer is good for the registrar that it leaves. -/
def Yields {α : Type} (declared : Declaration.Program) (base : Registrar)
    (computation : Register α) (good : Registrar → α → Prop) : Prop :=
  ∀ state, base.Extends state → state.Placed declared → ∀ value after,
    computation state = (.ok value, after) →
      state.Extends after ∧ after.Placed declared ∧ good after value

/-- What is good once stays good when the registrar is extended. -/
def Lasting {α : Type} (good : Registrar → α → Prop) : Prop :=
  ∀ ⦃registrar later value⦄, registrar.Extends later → good registrar value → good later value

theorem lasting_assignable : Lasting fun registrar => registrar.variableTable.Assignable :=
  fun _ _ _ grown holds => holds.grow grown.table

namespace Yields

variable {α β : Type} {declared : Declaration.Program} {base : Registrar} {computation : Register α}
  {good : Registrar → α → Prop}

theorem of_keeps {fine : α → Prop} (keeps : ∀ holds, Keeps holds computation fine)
    (implies : ∀ later value, base.Extends later → fine value → good later value) :
    Yields declared base computation good := by
  intro state starts placed value after run
  obtain ⟨⟨grown, placed'⟩, here⟩ :=
    keeps (fun later => state.Extends later ∧ later.Placed declared) state ⟨.refl state, placed⟩
      value after run
  exact ⟨grown, placed', implies after value (starts.trans grown) here⟩

theorem pure {value : α} (here : ∀ later, base.Extends later → good later value) :
    Yields declared base (pure value) good := by
  intro state starts placed value after run
  cases run
  exact ⟨.refl state, placed, here state starts⟩

theorem mono {better : Registrar → α → Prop} (yields : Yields declared base computation good)
    (implies : ∀ later value, base.Extends later → good later value → better later value) :
    Yields declared base computation better := by
  intro state starts placed value after run
  obtain ⟨grown, placed', here⟩ := yields state starts placed value after run
  exact ⟨grown, placed', implies after value (starts.trans grown) here⟩

theorem later {after : Registrar} (yields : Yields declared base computation good)
    (grown : base.Extends after) : Yields declared after computation good :=
  fun state starts => yields state (grown.trans starts)

theorem throw (failure : Failure) : Yields declared base (throw failure) good := by
  intro _ _ _ _ _ run
  cases run

theorem fail (cause : Error) : Yields declared base (fail cause) good :=
  throw _

theorem bind {next : α → Register β} {good' : Registrar → β → Prop}
    (first : Yields declared base computation good)
    (rest : ∀ later value, base.Extends later → good later value →
      Yields declared later (next value) good') :
    Yields declared base (computation >>= next) good' := by
  intro state starts placed value after run
  rw [run_bind] at run
  split at run
  · next between state' run' =>
      obtain ⟨grown, placed', here⟩ := first state starts placed between state' run'
      obtain ⟨grown', placed'', there⟩ :=
        rest state' between (starts.trans grown) here state' (.refl state') placed' value after run
      exact ⟨grown.trans grown', placed'', there⟩
  · cases run

theorem andThen {next : α → Register β} {good' : Registrar → β → Prop}
    (first : ∀ holds, Keeps holds computation fun _ => True)
    (rest : ∀ value, Yields declared base (next value) good') :
    Yields declared base (computation >>= next) good' :=
  (of_keeps first fun _ _ _ _ => trivial).bind fun _ value grown _ => (rest value).later grown

theorem bind_inRange {found : Option β} {next : β → Register α}
    (rest : ∀ value, found = some value → Yields declared base (next value) good) :
    Yields declared base (inRange found >>= next) good := by
  cases found with
  | none =>
      intro _ _ _ _ _ run
      cases run
  | some value => exact rest value rfl

theorem bind_get {next : Registrar → Register α}
    (rest : ∀ state, base.Extends state → state.Placed declared →
      Yields declared state (next state) good) :
    Yields declared base (get >>= next) good := by
  intro state starts placed value after run
  exact rest state starts placed state (.refl state) placed value after run

theorem forM_all {items : List β} {body : β → Register PUnit} {good : β → Registrar → Prop}
    (each : ∀ item ∈ items, Yields declared base (body item) fun later _ => good item later)
    (lasts : ∀ item registrar later, registrar.Extends later → good item registrar →
      good item later) :
    Yields declared base (items.forM body) fun later _ => ∀ item ∈ items, good item later := by
  induction items with
  | nil => exact pure fun _ _ => by simp
  | cons item items ih =>
      refine (each item List.mem_cons_self).bind fun _ _ grown here => ?_
      have rest := ih fun other member => each other (List.mem_cons_of_mem _ member)
      refine (rest.later grown).mono ?_
      exact fun later _ grown' all =>
        List.forall_mem_cons.mpr ⟨lasts item _ later grown' here, all⟩

theorem forM {items : List β} {body : β → Register PUnit}
    (each : ∀ item ∈ items, Yields declared base (body item) fun _ _ => True) :
    Yields declared base (items.forM body) fun _ _ => True :=
  (forM_all each fun _ _ _ _ _ => trivial).mono fun _ _ _ _ => trivial

theorem mapM {items : List β} {body : β → Register α} {good : β → Registrar → α → Prop}
    (each : ∀ item ∈ items, Yields declared base (body item) (good item))
    (lasts : ∀ item, Lasting (good item)) :
    Yields declared base (items.mapM body) fun registrar values =>
      List.Forall₂ (fun item value => good item registrar value) items values := by
  induction items with
  | nil =>
      rw [List.mapM_nil]
      exact pure fun _ _ => .nil
  | cons item items ih =>
      rw [List.mapM_cons]
      refine (each item List.mem_cons_self).bind fun _ value grown here => ?_
      refine ((ih fun other member => each other (List.mem_cons_of_mem _ member)).later grown).bind
        fun between values grown' all => pure fun last grown'' => ?_
      exact .cons (lasts item (grown'.trans grown'') here)
        (all.imp fun other _ => lasts other grown'')

theorem mapM_all {items : List β} {body : β → Register α}
    (each : ∀ item ∈ items, Yields declared base (body item) good) (lasts : Lasting good) :
    Yields declared base (items.mapM body) fun registrar values =>
      ∀ value ∈ values, good registrar value := by
  refine (mapM each fun _ => lasts).mono fun registrar values _ all => ?_
  clear each
  induction all with
  | nil => simp
  | cons here _ ih => simpa using ⟨here, ih⟩

theorem option_mapM {item : Option β} {body : β → Register α}
    (each : ∀ found, item = some found → Yields declared base (body found) good)
    (lasts : Lasting good) :
    Yields declared base (item.mapM body) fun registrar value =>
      ∀ found, value = some found → good registrar found := by
  cases item with
  | none => exact pure fun _ _ => nofun
  | some found =>
      refine (each found rfl).bind fun _ value _ here => pure fun last grown => ?_
      rintro _ ⟨⟩
      exact lasts grown here

end Yields

/-! ## The registrar -/

namespace Registrar

variable {declared : Declaration.Program} {base registrar : Registrar}

theorem Placed.extend (placed : registrar.Placed declared) {later : Registrar}
    (grown : registrar.Extends later) (sameStatements : later.statements = registrar.statements)
    (tidy : later.variableTable.Tidy later.hierarchy) (summaries : ∀ entry ∈ later.summaries,
      entry ∈ registrar.summaries ∨
        entry.2.Described later.hierarchy later.variableTable entry.1)
    (initializers : ∀ method ∈ later.initializers,
      method ∈ registrar.initializers ∨ later.hierarchy.IsInitializer method) :
    later.Placed declared where
  linked := grown.hierarchy ▸ placed.linked
  tidy := tidy
  statements statement member :=
    (placed.statements statement (sameStatements ▸ member)).extend grown
  sourced statement member := by
    rw [grown.hierarchy]
    exact (placed.sourced statement (sameStatements ▸ member)).grow grown.table
  distinct := sameStatements ▸ placed.distinct
  summaries entry member := by
    rcases summaries entry member with earlier | new
    · rw [grown.hierarchy]
      exact (placed.summaries entry earlier).grow grown.table
    · exact new
  initializers method member := by
    rcases initializers method member with earlier | new
    · rw [grown.hierarchy]
      exact placed.initializers method earlier
    · exact new

theorem make_yields (origin : VariableOrigin) (isKnown : origin.Known base.hierarchy)
    (type : TypeId) (flowSensitive : Bool) :
    Yields declared base (onVariables (·.make origin type flowSensitive)) fun later made =>
      later.variableTable.find? origin = some made ∧
        (origin.isLocal = false → made.flowSensitive = false) := by
  intro state starts placed value after run
  rw [← starts.hierarchy] at isKnown
  obtain ⟨grows, tidy, found⟩ :=
    VariableTable.make_spec placed.tidy origin isKnown type flowSensitive
  cases run
  have grown := state.extends_table grows
  exact ⟨grown, placed.extend grown rfl tidy (fun _ => .inl) fun _ => .inl, found,
    fun other => (tidy.holdsPlain found other).2⟩

theorem points_yields {points : PointGraph} (grows : registrar.points.Grows points)
    (placed : registrar.Placed declared) :
    registrar.Extends { registrar with points := points } ∧
      Placed declared { registrar with points := points } := by
  have grown := registrar.extends_points grows
  exact ⟨grown, placed.extend grown rfl placed.tidy (fun _ => .inl) fun _ => .inl⟩

theorem addPoint_yields (method : MethodId) (site : Nat) :
    Yields declared base (onPoints (·.addPoint method site)) fun later point =>
      later.points.points[point]? = some ⟨method, .statement site⟩ := by
  intro state _ placed value after run
  obtain ⟨grown, placed⟩ :=
    points_yields (state.points.grows_push ⟨method, .statement site⟩) placed
  cases run
  refine ⟨grown, placed, ?_⟩
  show (state.points.points ++ [_])[state.points.points.length]? = _
  simp

theorem methodPoints_yields (method : MethodId) :
    Yields declared base (onPoints (·.methodPoints method)) fun _ _ => True := by
  intro state _ placed value after run
  obtain ⟨grown, placed⟩ := points_yields (state.points.grows_methodPoints method) placed
  cases run
  exact ⟨grown, placed, trivial⟩

theorem addSuccessor_yields (source target : PointId) :
    Yields declared base (addSuccessor source target) fun _ _ => True := by
  intro state _ placed value after run
  unfold addSuccessor at run
  rw [run_bind, run_get] at run
  dsimp only at run
  cases found : state.points.addSuccessor? source target with
  | none =>
      rw [found] at run
      cases run
  | some points =>
      rw [found] at run
      obtain ⟨grown, placed⟩ := points_yields (state.points.grows_addSuccessor? found) placed
      cases run
      exact ⟨grown, placed, trivial⟩

theorem summary_yields (method : MethodId) :
    Yields declared base (summary method) fun later summary =>
      later.summaries.lookup method = some summary ∧
        summary.Described later.hierarchy later.variableTable method ∧
        ∀ declared, some declared ∈ summary.slots → later.variableTable.HoldsPlain declared := by
  intro state _ placed value after run
  unfold summary at run
  rw [run_bind, run_get] at run
  dsimp only at run
  cases isKnown : state.summaries.lookup method with
  | some known =>
      rw [isKnown] at run
      cases run
      have described := placed.summaries _ (mem_of_lookup isKnown)
      exact ⟨.refl _, placed, isKnown, described,
        fun _ member => described.plain placed.tidy member⟩
  | none =>
      rw [isKnown] at run
      cases found : state.variableTable.summary? state.hierarchy method with
      | none =>
          rw [found] at run
          cases run
      | some answer =>
          obtain ⟨made, table⟩ := answer
          rw [found] at run
          obtain ⟨grows, tidy, described⟩ := VariableTable.summary?_spec placed.tidy found
          cases run
          have grown := state.extends_summary method made grows
          refine ⟨grown, placed.extend grown rfl tidy (fun entry member => ?_) fun _ => .inl, ?_,
            described, fun _ member => described.plain tidy member⟩
          · rcases List.mem_append.mp member with earlier | new
            · exact .inl earlier
            · obtain rfl := List.mem_singleton.mp new
              exact .inr described
          · show (state.summaries ++ [(method, made)]).lookup method = _
            simp [List.lookup_append, isKnown]

theorem register_yields {statement : Statement} (here : statement.Placed base)
    (sourced : statement.Sourced declared base.hierarchy base.variableTable) :
    Yields declared base (register statement) fun later _ => statement ∈ later.statements := by
  intro state starts placed value after run
  unfold register at run
  rw [run_bind, run_get] at run
  dsimp only at run
  split at run
  · rw [run_bind] at run
    split at run
    · cases run
    · cases run
  · next free =>
      cases run
      have grown := state.extends_statement statement
      refine ⟨grown, ⟨placed.linked, placed.tidy, ?_, ?_, ?_, placed.summaries,
        placed.initializers⟩, by simp⟩
      · intro other member
        rcases List.mem_append.mp member with earlier | new
        · exact (placed.statements other earlier).extend grown
        · obtain rfl := List.mem_singleton.mp new
          exact here.extend (starts.trans grown)
      · intro other member
        rcases List.mem_append.mp member with earlier | new
        · exact placed.sourced other earlier
        · obtain rfl := List.mem_singleton.mp new
          show other.Sourced declared state.hierarchy _
          rw [starts.hierarchy]
          exact sourced.grow starts.table
      · refine List.pairwise_append.mpr ⟨placed.distinct, List.pairwise_singleton _ _, ?_⟩
        intro other member new isNew same
        obtain rfl := List.mem_singleton.mp isNew
        refine free (List.any_eq_true.mpr ⟨other, member, ?_⟩)
        simp [same]

theorem setEntry_yields (method : MethodId) :
    Yields declared base (setEntry method) fun _ _ => True := by
  intro state _ placed value after run
  have grown : state.Extends { state with entry := some method } :=
    { Registrar.Extends.refl state with }
  cases run
  exact ⟨grown, placed.extend grown rfl placed.tidy (fun _ => .inl) fun _ => .inl, trivial⟩

theorem addInitializer_yields {method : MethodId}
    (isInitializer : base.hierarchy.IsInitializer method) :
    Yields declared base (addInitializer method) fun _ _ => True := by
  intro state starts placed value after run
  obtain rfl : (if state.initializers.contains method then state
    else { state with initializers := state.initializers ++ [method] }) = after :=
      congrArg Prod.snd run
  split
  · exact ⟨.refl state, placed, trivial⟩
  · have grown : state.Extends { state with initializers := state.initializers ++ [method] } :=
      { Registrar.Extends.refl state with }
    refine ⟨grown, placed.extend grown rfl placed.tidy (fun _ => .inl) fun other member => ?_,
      trivial⟩
    rcases List.mem_append.mp member with earlier | new
    · exact .inl earlier
    · obtain rfl := List.mem_singleton.mp new
      rw [grown.hierarchy, starts.hierarchy]
      exact .inr isInitializer

structure Finishes (registrar : Registrar) (program : Program) : Prop where
  hierarchy : program.hierarchy = registrar.hierarchy
  table : program.variableTable = registrar.variableTable
  flow : program.flow = ⟨registrar.points, registrar.statements.filterMap Statement.kill?⟩
  statements : program.statements = registrar.statements
  summaries : program.summaries = registrar.summaries
  initializers : program.initializers = registrar.initializers
  all : ∀ method ∈ registrar.hierarchy.methodIds,
    ∃ summary, registrar.summaries.lookup method = some summary

theorem finish_yields :
    Yields declared base finish fun _ program => ∃ registrar : Registrar,
      base.Extends registrar ∧ registrar.Placed declared ∧ registrar.Finishes program := by
  refine .bind_get fun _ grown _ => ?_
  split
  · exact .fail _
  · refine .bind_get fun first grown' _ => ?_
    have known : ∀ method ∈ first.hierarchy.methodIds, Yields declared first (do
        let _ ← summary method) fun later _ =>
          ∃ summary, later.summaries.lookup method = some summary := by
      intro method _
      refine (summary_yields method).bind fun _ summary _ known => .pure fun _ grown => ?_
      exact ⟨summary, grown.summaries _ _ known.1⟩
    refine (Yields.forM_all known fun method _ later grown ⟨summary, known⟩ =>
      ⟨summary, grown.summaries _ _ known⟩).bind fun second _ grown₂ all => ?_
    refine .bind_get fun third grown₃ placed => .pure fun _ _ => ?_
    refine ⟨third, grown.trans (grown'.trans (grown₂.trans grown₃)), placed,
      rfl, rfl, rfl, rfl, rfl, rfl, fun method listed => ?_⟩
    rw [grown₃.hierarchy, grown₂.hierarchy] at listed
    obtain ⟨summary, known⟩ := all method listed
    exact ⟨summary, grown₃.summaries _ _ known⟩

end Registrar

end ObjectFlow
