import Mathlib.Data.List.Forall2
import ObjectFlow.Program.Loader
import ObjectFlow.Proofs.Effect
import ObjectFlow.Proofs.Evaluation.Origin
import ObjectFlow.Proofs.Hierarchy.Inheritance
import ObjectFlow.Proofs.Interning
import ObjectFlow.Proofs.Program.Variables

/-!
# What the names of a method body stand for

A declared body is bound to the method that its qualified name denotes.  Its
names stand for the receiver, the parameters and the locals, of which the one
that is declared last counts.  This fixes the variables of its handlers and the
arguments of its calls, whatever else is in the table of variables.
-/

namespace ObjectFlow

section Forall₂

variable {α β : Type} {rel : α → β → Prop} {left : List α} {right : List β} {index : Nat}

theorem forall₂_getElem?_left (all : List.Forall₂ rel left right) {value : α}
    (found : left[index]? = some value) :
    ∃ other, right[index]? = some other ∧ rel value other := by
  induction all generalizing index with
  | nil => cases found
  | cons here _ ih =>
      cases index with
      | zero =>
          cases found
          exact ⟨_, rfl, here⟩
      | succ index => exact ih found

theorem forall₂_getElem?_right (all : List.Forall₂ rel left right) {value : β}
    (found : right[index]? = some value) :
    ∃ other, left[index]? = some other ∧ rel other value :=
  forall₂_getElem?_left all.flip found

end Forall₂

/-! ## Variables by origin -/

namespace VariableTable

def Grows (earlier later : VariableTable) : Prop :=
  ∀ id entry, earlier.entry? id = some entry → later.entry? id = some entry

variable {table later last : VariableTable} {origin : VariableOrigin} {declared : Variable}

theorem Grows.refl (table : VariableTable) : table.Grows table :=
  fun _ _ found => found

theorem Grows.trans (first : table.Grows later) (second : later.Grows last) : table.Grows last :=
  fun id entry found => second id entry (first id entry found)

theorem find?_eq_some_iff :
    table.find? origin = some declared ↔ ∃ id, table.entry? id = some (origin, declared) := by
  simp only [find?, Option.bind_eq_some_iff, Interner.lookup_eq_some_iff, Interner.key?,
    Interner.payload?]
  constructor
  · rintro ⟨id, isKey, isPayload⟩
    obtain ⟨⟨_, _⟩, found, rfl⟩ := Option.map_eq_some_iff.mp isKey
    obtain ⟨⟨_, _⟩, again, rfl⟩ := Option.map_eq_some_iff.mp isPayload
    cases found.symm.trans again
    exact ⟨id, found⟩
  · rintro ⟨id, found⟩
    exact ⟨id, by simp [found]⟩

theorem Grows.find? (grows : table.Grows later) (found : table.find? origin = some declared) :
    later.find? origin = some declared := by
  obtain ⟨id, isEntry⟩ := find?_eq_some_iff.mp found
  exact find?_eq_some_iff.mpr ⟨id, grows id _ isEntry⟩

def Finds (table : VariableTable) : Option VariableOrigin → Option Variable → Prop
  | some origin, some declared => table.find? origin = some declared
  | none, none => True
  | _, _ => False

theorem Finds.grow {origin : Option VariableOrigin} {declared : Option Variable}
    (finds : table.Finds origin declared) (grows : table.Grows later) :
    later.Finds origin declared := by
  cases origin <;> cases declared
  · trivial
  · cases finds
  · cases finds
  · exact grows.find? finds

def Assignable (table : VariableTable) (declared : Variable) : Prop :=
  ∃ origin, table.find? origin = some declared ∧ ∀ id, origin ≠ .exception id

theorem Assignable.grow (assignable : table.Assignable declared) (grows : table.Grows later) :
    later.Assignable declared := by
  obtain ⟨origin, found, other⟩ := assignable
  exact ⟨origin, grows.find? found, other⟩

end VariableTable

/-! ## Methods and their bodies -/

namespace Hierarchy

def parameterOrigins (hierarchy : Hierarchy) (id : MethodId) (index : Nat) (types : List TypeId) :
    List (Option VariableOrigin) :=
  (types.zipIdx index).map fun (type, index) =>
    if hierarchy.isReference? type = some true then some (.formal id index) else none

/-- The origins of the receiver of an instance method and of the parameters. -/
def formalOrigins (hierarchy : Hierarchy) (id : MethodId) (method : Method) :
    List (Option VariableOrigin) :=
  if method.isStatic then
    hierarchy.parameterOrigins id 0 method.params
  else
    some (.formal id 0) :: hierarchy.parameterOrigins id 1 method.params

variable {hierarchy : Hierarchy} {id : MethodId} {method : Method} {index : Nat}

theorem getElem?_formalOrigins_receiver (isInstance : method.isStatic = false) :
    (hierarchy.formalOrigins id method)[0]? = some (some (.formal id 0)) := by
  simp [formalOrigins, isInstance]

theorem getElem?_formalOrigins_param {type : TypeId} (isParam : method.params[index]? = some type)
    (isReference : hierarchy.isReference? type = some true) :
    (hierarchy.formalOrigins id method)[index + if method.isStatic then 0 else 1]? =
      some (some (.formal id (index + if method.isStatic then 0 else 1))) := by
  unfold formalOrigins parameterOrigins
  cases method.isStatic <;> simp [isParam, isReference, Nat.add_comm]

theorem getElem?_formalOrigins {origin : VariableOrigin}
    (found : (hierarchy.formalOrigins id method)[index]? = some (some origin)) :
    origin = .formal id index := by
  unfold formalOrigins parameterOrigins at found
  cases method.isStatic with
  | true => grind
  | false => cases index <;> grind

end Hierarchy

structure MethodSummary.Described (hierarchy : Hierarchy) (table : VariableTable) (id : MethodId)
    (summary : MethodSummary) : Prop where
  formals : ∃ method, hierarchy.method? id = some method ∧
    List.Forall₂ table.Finds (hierarchy.formalOrigins id method) summary.formals
  result : ∀ declared, summary.result = some declared → table.find? (.result id) = some declared
  exception : table.find? (.exception id) = some summary.exception

theorem MethodSummary.Described.grow {hierarchy : Hierarchy} {table later : VariableTable}
    {id : MethodId} {summary : MethodSummary} (described : summary.Described hierarchy table id)
    (grows : table.Grows later) : summary.Described hierarchy later id where
  formals := by
    obtain ⟨method, isMethod, finds⟩ := described.formals
    exact ⟨method, isMethod, finds.imp fun _ _ here => here.grow grows⟩
  result declared isResult := grows.find? (described.result declared isResult)
  exception := grows.find? described.exception

namespace Declaration

namespace Method

variable (hierarchy : Hierarchy) (table : VariableTable) (id : MethodId) (body : Method)

def formalDeclarations (method : ObjectFlow.Method) : List (String × VariableOrigin) :=
  let names := body.params.map Parameter.name
  ((if method.isStatic then names else "this" :: names).zip
    (hierarchy.formalOrigins id method)).filterMap fun (name, origin) =>
      origin.map fun found => (name, found)

/-- What the names of a body stand for, in the order of declaration. -/
def declarations : List (String × VariableOrigin) :=
  (hierarchy.method? id).elim [] fun method =>
    body.formalDeclarations hierarchy id method ++ body.locals.filterMap fun declared =>
      if (hierarchy.lookupType declared.type).bind hierarchy.isReference? = some true then
        some (declared.name, .local id declared.name)
      else
        none

/-- The variable that a name stands for: that of its last declaration. -/
def named? (name : String) : Option Variable :=
  ((body.declarations hierarchy id).reverse.lookup name).bind table.find?

def handler? (declared : Catch) : Option Handler := do
  let type ← hierarchy.lookupType declared.type
  let target ← body.named? hierarchy table id declared.target
  pure ⟨type, target⟩

/-- An element of the body stands at a site. -/
def Declares (site : Nat) (element : Element) (operands : Operands) : Prop :=
  ((element, operands), site) ∈ body.statements.zip (sitesFrom 0 body.statements)

def callAt? (site : Nat) : Option Operands :=
  ((body.statements.zip (sitesFrom 0 body.statements)).find? fun ((element, _), other) =>
    element = .call && other = site).map fun entry => entry.1.2

/-- What a call passes for a parameter of a type when it names something, or nothing, at that place:
nothing for a primitive parameter, an absent argument and `_`. -/
def Passes (type : TypeId) (given : Option String) : Option Variable → Prop
  | some arg => hierarchy.isReference? type = some true ∧ ∃ name, given = some name ∧ name ≠ "_" ∧
      body.named? hierarchy table id name = some arg
  | none => hierarchy.isReference? type = some true → ∀ name, given = some name → name = "_"

def PassesAll (types : List TypeId) (names : List String) (args : List (Option Variable)) : Prop :=
  args.length = types.length ∧ ∀ (index : Nat) type arg, types[index]? = some type →
    args[index]? = some arg → body.Passes hierarchy table id type names[index]? arg

variable {hierarchy table id body}

theorem named?_grow {later : VariableTable} (grows : table.Grows later) {name : String}
    {found : Variable} (isNamed : body.named? hierarchy table id name = some found) :
    body.named? hierarchy later id name = some found := by
  obtain ⟨origin, isOrigin, isFound⟩ := Option.bind_eq_some_iff.mp isNamed
  exact Option.bind_eq_some_iff.mpr ⟨origin, isOrigin, grows.find? isFound⟩

theorem assignable_of_named? {name : String} {found : Variable}
    (isNamed : body.named? hierarchy table id name = some found) : table.Assignable found := by
  obtain ⟨origin, isOrigin, isFound⟩ := Option.bind_eq_some_iff.mp isNamed
  refine ⟨origin, isFound, fun other same => ?_⟩
  subst same
  have member := List.mem_reverse.mp (mem_of_lookup isOrigin)
  unfold declarations at member
  cases found : hierarchy.method? id with
  | none => simp [found] at member
  | some method =>
      simp only [found, Option.elim_some, List.mem_append, List.mem_filterMap] at member
      rcases member with formal | ⟨declared, _, isLocal⟩
      · obtain ⟨⟨_, origin⟩, paired, same⟩ := List.mem_filterMap.mp formal
        obtain ⟨_, rfl, same⟩ := Option.map_eq_some_iff.mp same
        cases same
        obtain ⟨index, isFormal⟩ := List.mem_iff_getElem?.mp (List.of_mem_zip paired).2
        cases Hierarchy.getElem?_formalOrigins isFormal
      · split at isLocal <;> cases isLocal

theorem assignable_of_handler? {caught : Catch} {handler : Handler}
    (isHandler : body.handler? hierarchy table id caught = some handler) :
    table.Assignable handler.target := by
  obtain ⟨type, _, isHandler⟩ := Option.bind_eq_some_iff.mp isHandler
  obtain ⟨target, isNamed, same⟩ := Option.bind_eq_some_iff.mp isHandler
  cases same
  exact assignable_of_named? isNamed

theorem handler?_grow {later : VariableTable} (grows : table.Grows later) {declared : Catch}
    {found : Handler} (isHandler : body.handler? hierarchy table id declared = some found) :
    body.handler? hierarchy later id declared = some found := by
  obtain ⟨type, isType, rest⟩ := Option.bind_eq_some_iff.mp isHandler
  obtain ⟨target, isTarget, same⟩ := Option.bind_eq_some_iff.mp rest
  simp only [handler?, isType, named?_grow grows isTarget, Option.bind_eq_bind,
    Option.bind_some]
  exact same

theorem PassesAll.cons {type : TypeId} {types : List TypeId} {names : List String}
    {passed : Option Variable} {args : List (Option Variable)}
    (here : body.Passes hierarchy table id type names[0]? passed)
    (all : body.PassesAll hierarchy table id types names.tail args) :
    body.PassesAll hierarchy table id (type :: types) names (passed :: args) := by
  refine ⟨by simp [all.1], fun index other arg isType isArg => ?_⟩
  cases index with
  | zero =>
      cases isType
      cases isArg
      exact here
  | succ index =>
      rw [← List.getElem?_tail]
      exact all.2 index other arg isType isArg

theorem Passes.grow {later : VariableTable} (grows : table.Grows later) {type : TypeId}
    {given : Option String} {passed : Option Variable}
    (here : body.Passes hierarchy table id type given passed) :
    body.Passes hierarchy later id type given passed := by
  cases passed with
  | none => exact here
  | some passed =>
      obtain ⟨isReference, name, isName, other, isNamed⟩ := here
      exact ⟨isReference, name, isName, other, named?_grow grows isNamed⟩

theorem PassesAll.grow {later : VariableTable} (grows : table.Grows later) {types : List TypeId}
    {names : List String} {args : List (Option Variable)}
    (passes : body.PassesAll hierarchy table id types names args) :
    body.PassesAll hierarchy later id types names args :=
  ⟨passes.1, fun index type arg isType isArg => (passes.2 index type arg isType isArg).grow grows⟩

/-! ### Sites -/

private theorem le_of_mem_sitesFrom {next site : Nat} {statements : List (Element × Operands)}
    (member : site ∈ sitesFrom next statements) : next ≤ site := by
  induction statements generalizing next with
  | nil => cases member
  | cons entry rest ih =>
      rcases List.mem_cons.mp member with rfl | later
      · exact Nat.le_refl _
      · exact Nat.le_trans (Nat.le_add_right _ _) (ih later)

private theorem callAt?_of_mem {site : Nat} {operands : Operands}
    (member : body.Declares site .call operands) : body.callAt? site = some operands := by
  unfold Declares at member
  unfold callAt?
  generalize body.statements = statements at member
  generalize 0 = next at member
  induction statements generalizing next with
  | nil => cases member
  | cons entry rest ih =>
      obtain ⟨element, given⟩ := entry
      rw [sitesFrom, List.zip_cons_cons] at member ⊢
      rcases List.mem_cons.mp member with here | later
      · cases here
        simp
      · have above := le_of_mem_sitesFrom (List.of_mem_zip later).2
        have other : next ≠ site := by
          have : 1 ≤ if element = .call then 2 else 1 := by split <;> omega
          omega
        rw [List.find?_cons_of_neg (by simp [other])]
        exact ih _ later

theorem mem_of_callAt? {site : Nat} {operands : Operands}
    (found : body.callAt? site = some operands) : body.Declares site .call operands := by
  obtain ⟨⟨⟨element, given⟩, other⟩, isFound, rfl⟩ := Option.map_eq_some_iff.mp found
  have same := List.find?_some isFound
  simp only [Bool.and_eq_true, decide_eq_true_eq] at same
  obtain ⟨rfl, rfl⟩ := same
  exact List.mem_of_find?_eq_some isFound

end Method

namespace Program

def bodies (declared : Program) (hierarchy : Hierarchy) : List (MethodId × Method) :=
  declared.classes.flatMap fun owner => owner.methods.filterMap fun body =>
    (hierarchy.lookupMethod s!"{owner.name}.{body.name}").toOption.map fun id => (id, body)

theorem method?_of_body {declared : Program} {hierarchy : Hierarchy} {id : MethodId} {body : Method}
    (isBody : (id, body) ∈ declared.bodies hierarchy) :
    ∃ method, hierarchy.method? id = some method := by
  obtain ⟨owner, _, isBody⟩ := List.mem_flatMap.mp isBody
  obtain ⟨_, _, isBody⟩ := List.mem_filterMap.mp isBody
  obtain ⟨_, found, same⟩ := Option.map_eq_some_iff.mp isBody
  cases same
  have found := toOption_eq_some.mp found
  unfold Hierarchy.lookupMethod at found
  dsimp only at found
  split at found
  · next isMethod =>
      cases found
      obtain ⟨_, _, isMethod⟩ := Option.bind_eq_some_iff.mp isMethod
      obtain ⟨_, _, isMethod⟩ := Option.bind_eq_some_iff.mp isMethod
      obtain ⟨_, _, isMethod⟩ := Option.bind_eq_some_iff.mp isMethod
      have isNamed := List.find?_some (show List.find? _ _ = some _ from isMethod)
      obtain ⟨method, isMethod, _⟩ := (Option.any_eq_true _ _).mp isNamed
      exact ⟨method, isMethod⟩
  · cases found

end Program

end Declaration

/-! ## Statements -/

theorem Action.assigned_cases {action : Action} {declared : Variable}
    (member : declared ∈ action.assigned) :
    action.defined? = some declared ∨ declared ∈ action.handled ∨
      (∃ source, action = .return source declared) ∨
      ∃ call, action = .call call ∧ call.exception = declared := by
  cases action with
  | static access _ _ _ => cases access <;> simp_all [assigned, written, defined?]
  | call call =>
      rcases List.mem_cons.mp member with rfl | result
      · exact .inr (.inr (.inr ⟨call, rfl, rfl⟩))
      · exact .inl (Option.mem_toList.mp result)
  | _ => simp_all [assigned, written, defined?, handled]

def Declaration.Operands.Accesses (hierarchy : Hierarchy) (table : VariableTable)
    (operands : Declaration.Operands) (made : Variable) (declaring : TypeId) : Prop :=
  ∃ className fieldName type number field, operands.className = some className ∧
    operands.field = some fieldName ∧ hierarchy.lookupType className = some type ∧
    hierarchy.lookupField type fieldName = .ok number ∧ hierarchy.field? number = some field ∧
    field.declaring = declaring ∧ table.find? (.staticField number) = some made

private theorem Declaration.Operands.Accesses.grow {hierarchy : Hierarchy}
    {table later : VariableTable} {operands : Declaration.Operands} {made : Variable}
    {declaring : TypeId} (accesses : operands.Accesses hierarchy table made declaring)
    (grows : table.Grows later) : operands.Accesses hierarchy later made declaring := by
  obtain ⟨className, fieldName, type, number, field, isClass, isName, isType, isNumber, isField,
    isDeclaring, found⟩ := accesses
  exact ⟨className, fieldName, type, number, field, isClass, isName, isType, isNumber, isField,
    isDeclaring, grows.find? found⟩

structure Call.Described (hierarchy : Hierarchy) (table : VariableTable) (id : MethodId)
    (body : Declaration.Method) (operands : Declaration.Operands) (site : Nat) (call : Call) :
    Prop where
  args : ∃ name declared, operands.method = some name ∧
    hierarchy.lookupMethod name = .ok call.callee ∧
    hierarchy.method? call.callee = some declared ∧ body.PassesAll hierarchy table id
      declared.params (Text.splitList operands.args) call.args
  exception : table.find? (.callException id site) = some call.exception

private theorem Call.Described.grow {hierarchy : Hierarchy} {table later : VariableTable}
    {id : MethodId} {body : Declaration.Method} {operands : Declaration.Operands} {site : Nat}
    {call : Call} (described : call.Described hierarchy table id body operands site)
    (grows : table.Grows later) : call.Described hierarchy later id body operands site where
  args := by
    obtain ⟨name, declared, isName, isCallee, isMethod, passes⟩ := described.args
    exact ⟨name, declared, isName, isCallee, isMethod, passes.grow grows⟩
  exception := grows.find? described.exception

/-- The action is what an element of a body stands for, as far as the types, fields and methods go
that the element names. -/
inductive Action.Means (hierarchy : Hierarchy) (table : VariableTable) (id : MethodId)
    (body : Declaration.Method) (site : Nat) (operands : Declaration.Operands) :
    Declaration.Element → Action → Prop where
  | new {name : String} {target : Variable} {type : TypeId} : operands.type = some name →
      hierarchy.lookupType name = some type →
      Means hierarchy table id body site operands .new (.new target type)
  | newArray {name : String} {target : Variable} {type : TypeId} {dims : Nat} :
      operands.type = some name → dims = max (operands.dims.getD 1) 1 →
      hierarchy.lookupType (name ++ String.join (List.replicate dims "[]")) = some type →
      Means hierarchy table id body site operands .newArray (.newArray target type dims)
  | copy {target source : Variable} {cast : Option TypeId} :
      (∀ type, cast = some type → ∃ name, hierarchy.lookupType name = some type) →
      Means hierarchy table id body site operands .copy (.copy target source cast)
  | phi {target : Variable} {sources : List Variable} :
      Means hierarchy table id body site operands .phi (.phi target sources)
  | load {target base : Variable} {number : FieldId} {field : Field} :
      hierarchy.field? number = some field →
      Means hierarchy table id body site operands .load (.load target base (.named number))
  | arrayLoad {target base : Variable} :
      Means hierarchy table id body site operands .arrayLoad (.load target base .arrayContents)
  | store {base source : Variable} {number : FieldId} {field : Field} :
      hierarchy.field? number = some field →
      Means hierarchy table id body site operands .store (.store base (.named number) source)
  | arrayStore {base source : Variable} :
      Means hierarchy table id body site operands .arrayStore (.store base .arrayContents source)
  | getStatic {target made : Variable} {type : TypeId} {initializers : List MethodId} :
      operands.Accesses hierarchy table made type →
      hierarchy.classInitializersFor? type = some initializers →
      Means hierarchy table id body site operands .getStatic
        (.static .get target made initializers)
  | putStatic {source made : Variable} {type : TypeId} {initializers : List MethodId} :
      operands.Accesses hierarchy table made type →
      hierarchy.classInitializersFor? type = some initializers →
      Means hierarchy table id body site operands .putStatic
        (.static .put source made initializers)
  | call {call : Call} : call.Described hierarchy table id body operands site →
      Means hierarchy table id body site operands .call (.call call)
  | return {source summary : Variable} :
      Means hierarchy table id body site operands .return (.return source summary)
  | throw {source summary : Variable} {handlers : List Handler} :
      Means hierarchy table id body site operands .throw (.raise source handlers summary)
  | classInit {name : String} {type : TypeId} {initializers : List MethodId} :
      operands.className = some name → hierarchy.lookupType name = some type →
      hierarchy.classInitializersFor? type = some initializers →
      Means hierarchy table id body site operands .classInit (.classInit initializers)

theorem Action.Means.grow {hierarchy : Hierarchy} {table later : VariableTable} {id : MethodId}
    {body : Declaration.Method} {site : Nat} {operands : Declaration.Operands}
    {element : Declaration.Element} {action : Action}
    (means : action.Means hierarchy table id body site operands element)
    (grows : table.Grows later) : action.Means hierarchy later id body site operands element := by
  cases means with
  | new isName isType => exact .new isName isType
  | newArray isName isDims isType => exact .newArray isName isDims isType
  | copy isCast => exact .copy isCast
  | phi => exact .phi
  | load isField => exact .load isField
  | arrayLoad => exact .arrayLoad
  | store isField => exact .store isField
  | arrayStore => exact .arrayStore
  | getStatic accesses triggers => exact .getStatic (accesses.grow grows) triggers
  | putStatic accesses triggers => exact .putStatic (accesses.grow grows) triggers
  | call described => exact .call (described.grow grows)
  | «return» => exact .return
  | throw => exact .throw
  | classInit isName isType triggers => exact .classInit isName isType triggers

structure Statement.Sourced (declared : Declaration.Program) (hierarchy : Hierarchy)
    (table : VariableTable) (statement : Statement) : Prop where
  triggered : ∀ method ∈ statement.action.triggered, hierarchy.Names method
  assigned : ∀ declared ∈ statement.action.assigned, table.Assignable declared
  returned : ∀ source summary, statement.action = .return source summary →
    table.find? (.result statement.method) = some summary
  meant : (∃ body element operands, (statement.method, body) ∈ declared.bodies hierarchy ∧
      body.Declares statement.site element operands ∧ statement.action.Means hierarchy table
        statement.method body statement.site operands element) ∨
    ∃ source handlers summary, statement.action = .raise source handlers summary
  raise : ∀ source handlers summary, statement.action = .raise source handlers summary →
    table.find? (.exception statement.method) = some summary ∧ ∃ body,
      (statement.method, body) ∈ declared.bodies hierarchy ∧ List.Forall₂
        (fun caught handler => body.handler? hierarchy table statement.method caught = some handler)
        body.catches handlers

theorem Statement.Sourced.grow {declared : Declaration.Program} {hierarchy : Hierarchy}
    {table later : VariableTable} {statement : Statement}
    (sourced : statement.Sourced declared hierarchy table) (grows : table.Grows later) :
    statement.Sourced declared hierarchy later where
  triggered := sourced.triggered
  assigned declared member := (sourced.assigned declared member).grow grows
  returned source summary isReturn := grows.find? (sourced.returned source summary isReturn)
  meant := by
    rcases sourced.meant with ⟨body, element, operands, isBody, declares, means⟩ | isRaise
    · exact .inl ⟨body, element, operands, isBody, declares, means.grow grows⟩
    · exact .inr isRaise
  raise source handlers summary isRaise := by
    obtain ⟨isSummary, body, isBody, caught⟩ := sourced.raise source handlers summary isRaise
    refine ⟨grows.find? isSummary, body, isBody, caught.imp fun _ _ isHandler => ?_⟩
    exact Declaration.Method.handler?_grow grows isHandler

theorem Statement.Sourced.call {declared : Declaration.Program} {hierarchy : Hierarchy}
    {table : VariableTable} {statement : Statement} {call : Call}
    (sourced : statement.Sourced declared hierarchy table)
    (isCall : statement.action = .call call) : ∃ body operands,
      (statement.method, body) ∈ declared.bodies hierarchy ∧
        body.callAt? statement.site = some operands := by
  rcases sourced.meant with ⟨body, element, operands, isBody, declares, means⟩ | isRaise
  · rw [isCall] at means
    cases means
    exact ⟨body, operands, isBody, Declaration.Method.callAt?_of_mem declares⟩
  · obtain ⟨_, _, _, isRaise⟩ := isRaise
    cases isCall.symm.trans isRaise

end ObjectFlow
