import ObjectFlow.Proofs.Program.Registering

/-!
# Programs without flow-sensitive variables

Only locals are declared flow-sensitive.  If all of their flags are cleared,
loading goes the same way: the hierarchy, the points and the sites are the same,
and variables have the same ids.  `Registrar.Carries` compares the two ways step
by step, and `Declaration.load_plain` says that the loaded programs differ in
the flags of their variables only.
-/

namespace ObjectFlow

/-! ## Declarations -/

namespace Declaration

def Local.plain (declared : Local) : Local := { declared with flowSensitive := false }

def Item.plain : Item → Item
  | .local declared => .local declared.plain
  | item => item

def Method.plain (method : Method) : Method := { method with items := method.items.map Item.plain }

def Member.plain : Member → Member
  | .method declared => .method declared.plain
  | member => member

def Class.plain (declared : Class) : Class :=
  { declared with members := declared.members.map Member.plain }

/-- The declaration with no local flow-sensitive. -/
def Program.plain (program : Program) : Program :=
  { program with classes := program.classes.map Class.plain }

namespace Method

variable (method : Method)

theorem plain_params : method.plain.params = method.params := by
  unfold params plain
  rw [List.filterMap_map]
  congr 1
  funext item
  cases item <;> rfl

theorem plain_locals : method.plain.locals = method.locals.map Local.plain := by
  unfold locals plain
  rw [List.filterMap_map, List.map_filterMap]
  congr 1
  funext item
  cases item <;> rfl

theorem plain_catches : method.plain.catches = method.catches := by
  unfold catches plain
  rw [List.filterMap_map]
  congr 1
  funext item
  cases item <;> rfl

theorem plain_statements : method.plain.statements = method.statements := by
  unfold statements plain
  rw [List.filterMap_map]
  congr 1
  funext item
  cases item <;> rfl

end Method

namespace Class

variable (declared : Class)

private theorem plain_fields : declared.plain.fields = declared.fields := by
  unfold fields plain
  rw [List.filterMap_map]
  congr 1
  funext member
  cases member <;> rfl

theorem plain_methods : declared.plain.methods = declared.methods.map Method.plain := by
  unfold methods plain
  rw [List.filterMap_map, List.map_filterMap]
  congr 1
  funext member
  cases member <;> rfl

end Class

private theorem declareMethod_plain (declaring : TypeId) (method : Method) :
    declareMethod declaring method.plain = declareMethod declaring method := by
  unfold declareMethod
  simp only [method.plain_params, method.plain_locals, method.plain_catches,
    method.plain_statements, List.forM_eq_forM, List.forM_map]
  rfl

private theorem declareMembers_plain (declared : Class) (id : TypeId) :
    declareMembers declared.plain id = declareMembers declared id := by
  unfold declareMembers
  simp only [declared.plain_fields, declared.plain_methods, List.forM_eq_forM, List.forM_map,
    declareMethod_plain]

private theorem Program.declareTypes_plain (program : Program) :
    program.plain.declareTypes = program.declareTypes := by
  unfold declareTypes plain
  simp only [List.mapM_map, List.zip_map_left, List.forM_eq_forM, List.forM_map, Prod.map,
    declareMembers_plain]
  rfl

private theorem Program.hierarchy_plain (program : Program) :
    program.plain.hierarchy = program.hierarchy := by
  unfold hierarchy
  rw [declareTypes_plain]

end Declaration

/-! ## Variables -/

namespace VariableTable

variable (table : VariableTable) (hierarchy : Hierarchy)

def plain : VariableTable := Interner.map Variable.plain table

theorem make_plain (origin : VariableOrigin) (type : TypeId) (flowSensitive : Bool) :
    table.plain.make origin type false =
      ((table.make origin type flowSensitive).1.plain,
        (table.make origin type flowSensitive).2.plain) := by
  have fresh : (⟨table.plain.size, type, origin.isSingleton, origin.isLocal && false⟩ : Variable) =
      Variable.plain ⟨table.size, type, origin.isSingleton, origin.isLocal && flowSensitive⟩ := by
    simp [Variable.plain, plain]
  unfold make
  simp only [fresh]
  simp only [plain, Interner.intern_map, Interner.payload?_map, Option.getD_map]

theorem find?_plain (origin : VariableOrigin) :
    table.plain.find? origin = (table.find? origin).map Variable.plain := by
  unfold find? plain
  rw [Interner.lookup_map, Option.map_bind]
  exact congrArg (Option.bind _) (funext fun id => table.payload?_map Variable.plain id)

private theorem parameters_plain (method : MethodId) (index : Nat) (types : List TypeId) :
    table.plain.parameters hierarchy method index types =
      (table.parameters hierarchy method index types).map fun given =>
        (given.1.map (Option.map Variable.plain), given.2.plain) := by
  induction types generalizing table index with
  | nil => rfl
  | cons type types ih =>
      unfold parameters
      cases hierarchy.isReference? type with
      | none => rfl
      | some isReference =>
          cases isReference with
          | true =>
              simp only [Option.bind_eq_bind, Option.bind_some, if_true, make_plain _ _ _ false, ih,
                Option.bind_map, Option.map_bind]
              rfl
          | false =>
              simp only [Option.bind_eq_bind, Option.bind_some, Bool.false_eq_true, if_false, ih,
                Option.bind_map, Option.map_bind]
              rfl

private theorem receiver_plain (id : MethodId) (method : Method) :
    table.plain.receiver id method =
      ((table.receiver id method).1.map (Option.map Variable.plain),
        (table.receiver id method).2.plain) := by
  unfold receiver
  cases method.isStatic with
  | true => rfl
  | false => simp [make_plain _ _ _ false]

private theorem returned?_plain (id : MethodId) (returns : Option TypeId) :
    table.plain.returned? hierarchy id returns =
      (table.returned? hierarchy id returns).map fun returned =>
        (returned.1.map Variable.plain, returned.2.plain) := by
  cases returns with
  | none => rfl
  | some type =>
      simp only [returned?, Option.map_map]
      congr 1
      funext isReference
      cases isReference with
      | true => simp [make_plain _ _ _ false]
      | false => rfl

private theorem summary?_plain (method : MethodId) :
    table.plain.summary? hierarchy method =
      (table.summary? hierarchy method).map fun made =>
        (made.1.mapVariables Variable.plain, made.2.plain) := by
  rw [summary?_eq, summary?_eq]
  simp [receiver_plain, parameters_plain, returned?_plain, make_plain _ _ _ false, Option.map_bind,
    Option.bind_map, Function.comp_def, MethodSummary.mapVariables]

end VariableTable

/-! ## Registrars -/

namespace Registrar

def plain (registrar : Registrar) : Registrar :=
  { registrar with
    variableTable := registrar.variableTable.plain
    statements := registrar.statements.map (Statement.mapVariables Variable.plain)
    summaries := registrar.summaries.map fun entry =>
      (entry.1, entry.2.mapVariables Variable.plain) }

/-- If the first computation succeeds then so does the second where no variable is flow-sensitive,
with the image of its answer. -/
def Carries {α β : Type} (image : α → β) (sensitive : Register α) (plain : Register β) : Prop :=
  ∀ registrar value later, sensitive registrar = (.ok value, later) →
    plain registrar.plain = (.ok (image value), later.plain)

namespace Carries

open Effect

variable {α β γ δ : Type} {image : α → β} {sensitive : Register α} {plain : Register β}

theorem pure {value : α} : Carries image (pure value) (pure (image value)) := by
  intro registrar answer later run
  cases run
  rfl

theorem throw (failure : Failure) : Carries image (throw failure) plain := by
  intro registrar answer later run
  cases run

theorem fail (cause : Error) : Carries image (fail cause) plain :=
  throw _

private theorem inRange {value : Option α} :
    Carries image (inRange value) (inRange (value.map image)) := by
  cases value with
  | none => exact throw _
  | some found => exact pure

theorem inRange_same {value : Option α} :
    Carries id (ObjectFlow.inRange value) (ObjectFlow.inRange value) := by
  cases value with
  | none => exact throw _
  | some found => exact pure

theorem set {registrar other : Registrar} (same : other = registrar.plain) :
    Carries id (set registrar) (set other) := by
  subst same
  intro _ answer later run
  cases run
  rfl

theorem bind {image' : γ → δ} {next : α → Register γ} {next' : β → Register δ}
    (first : Carries image sensitive plain)
    (rest : ∀ value, Carries image' (next value) (next' (image value))) :
    Carries image' (sensitive >>= next) (plain >>= next') := by
  intro registrar value later run
  rw [run_bind] at run
  split at run
  · next between after run' =>
      rw [run_bind, first registrar between after run']
      exact rest between after value later run
  · cases run

theorem andThen {same : Register γ} {next : γ → Register α} {next' : γ → Register β}
    {first : Register γ} (here : Carries id first same)
    (rest : ∀ value, Carries image (next value) (next' value)) :
    Carries image (first >>= next) (same >>= next') :=
  here.bind rest

theorem bind_get {next : Registrar → Register α} {next' : Registrar → Register β}
    (rest : ∀ registrar, Carries image (next registrar) (next' registrar.plain)) :
    Carries image (get >>= next) (get >>= next') :=
  fun registrar => rest registrar registrar

theorem mapM {body : γ → Register α} {body' : γ → Register β} (items : List γ)
    (each : ∀ item, Carries image (body item) (body' item)) :
    Carries (List.map image) (items.mapM body) (items.mapM body') := by
  induction items with
  | nil => exact pure
  | cons item items ih =>
      rw [List.mapM_cons, List.mapM_cons]
      exact (each item).bind fun _ => ih.bind fun _ => pure

private theorem mapM_same {body : γ → Register α} (items : List γ)
    (each : ∀ item, Carries id (body item) (body item)) :
    Carries id (items.mapM body) (items.mapM body) := by
  have carried := mapM items each
  rwa [List.map_id_fun] at carried

theorem forM {body body' : γ → Register PUnit} (items : List γ)
    (each : ∀ item, Carries id (body item) (body' item)) :
    Carries id (items.forM body) (items.forM body') := by
  induction items with
  | nil => exact pure
  | cons item items ih => exact (each item).bind fun _ => ih

theorem option_mapM {body : γ → Register α} {body' : γ → Register β} (item : Option γ)
    (each : ∀ found, Carries image (body found) (body' found)) :
    Carries (Option.map image) (item.mapM body) (item.mapM body') := by
  cases item with
  | none => exact pure
  | some found => exact (each found).bind fun _ => pure

end Carries

@[simp] theorem plain_hierarchy (registrar : Registrar) :
    registrar.plain.hierarchy = registrar.hierarchy := rfl

private theorem make_carries (origin : VariableOrigin) (type : TypeId) (flowSensitive : Bool) :
    Carries Variable.plain (onVariables (·.make origin type flowSensitive))
      (onVariables (·.make origin type false)) := by
  refine .bind_get fun registrar => ?_
  have made : registrar.plain.variableTable.make origin type false = _ :=
    registrar.variableTable.make_plain origin type flowSensitive
  dsimp only
  rw [made]
  exact Carries.bind (.set rfl) fun _ => .pure

private theorem onPoints_carries {α : Type} (change : PointGraph → α × PointGraph) :
    Carries id (onPoints change) (onPoints change) := by
  intro registrar value later run
  cases run
  rfl

private theorem addSuccessor_carries (source target : PointId) :
    Carries id (addSuccessor source target) (addSuccessor source target) :=
  .bind_get fun _ => Carries.inRange_same.bind fun _ => .set rfl

private theorem summary_carries (method : MethodId) :
    Carries (MethodSummary.mapVariables Variable.plain) (summary method) (summary method) := by
  refine .bind_get fun registrar => ?_
  have looked : registrar.plain.summaries.lookup method = _ :=
    lookup_map_snd (MethodSummary.mapVariables Variable.plain) registrar.summaries method
  have made : registrar.plain.variableTable.summary? registrar.hierarchy method = _ :=
    registrar.variableTable.summary?_plain registrar.hierarchy method
  rw [plain_hierarchy, looked, made]
  cases registrar.summaries.lookup method with
  | some known => exact .pure
  | none =>
      refine Carries.inRange.bind fun answer => ?_
      exact Carries.bind (.set (by simp [plain])) fun _ => .pure

private theorem register_carries (statement : Statement) :
    Carries id (register statement) (register (statement.mapVariables Variable.plain)) := by
  refine .bind_get fun registrar => ?_
  have clashes : (registrar.plain.statements.any fun other =>
      other.method = (statement.mapVariables Variable.plain).method &&
        other.site = (statement.mapVariables Variable.plain).site) =
      registrar.statements.any fun other =>
        other.method = statement.method && other.site = statement.site := by
    simp only [plain, List.any_map]
    rfl
  rw [clashes]
  split
  · exact Carries.inRange_same.bind fun _ => .fail _
  · have size : registrar.plain.statements.length = registrar.statements.length :=
      List.length_map _
    rw [size]
    exact Carries.bind (.set (by simp [plain])) fun _ => .pure

private theorem modify_carries {change : Registrar → Registrar}
    (same : ∀ registrar, change registrar.plain = (change registrar).plain) :
    Carries id (modify change) (modify change) := by
  intro registrar value later run
  cases run
  exact congrArg (Prod.mk _) (same registrar)

end Registrar

def Program.plain (program : Program) : Program :=
  { program with
    variableTable := program.variableTable.plain
    flow := ⟨program.flow.graph, []⟩
    statements := program.statements.map (Statement.mapVariables Variable.plain)
    summaries := program.summaries.map fun entry =>
      (entry.1, entry.2.mapVariables Variable.plain) }

namespace Registrar

private theorem finish_carries : Carries Program.plain finish finish := by
  refine .bind_get fun registrar => ?_
  have sameEntry : registrar.plain.entry = registrar.entry := rfl
  rw [sameEntry]
  cases registrar.entry with
  | none => exact .fail _
  | some entry =>
      refine .bind_get fun registrar => ?_
      have summed : ∀ method, Carries id (do let _ ← summary method) (do let _ ← summary method) :=
        fun method => (summary_carries method).bind fun _ => .pure
      refine .andThen (.forM _ summed) fun _ => .bind_get fun registrar => ?_
      have unwritten : registrar.plain.statements.filterMap Statement.kill? = [] := by
        simp [plain, Statement.kill?_plain]
      rw [unwritten]
      exact .pure

end Registrar

/-! ## Loading -/

namespace Declaration

open Registrar

def Scope.plain (scope : Scope) : Scope :=
  { scope with
    summary := scope.summary.mapVariables Variable.plain
    bindings := scope.bindings.map fun entry => (entry.1, entry.2.plain)
    handlers := scope.handlers.map (Handler.mapVariables Variable.plain) }

variable (scope : Scope)

private theorem lookupType_carries (name : String) :
    Carries id (lookupType name) (lookupType name) := by
  refine .bind_get fun registrar => ?_
  rw [plain_hierarchy]
  cases registrar.hierarchy.lookupType name with
  | none => exact .fail _
  | some type => exact .pure

theorem lookup_carries (name : String) :
    Carries Variable.plain (scope.lookup name) (scope.plain.lookup name) := by
  unfold Scope.lookup
  have looked : scope.plain.bindings.lookup name = _ :=
    lookup_map_snd Variable.plain scope.bindings name
  rw [looked]
  cases scope.bindings.lookup name with
  | none => exact .fail _
  | some found => exact .pure

private theorem require_carries (value : Option String) (element : Element) (property : String) :
    Carries id (require value element property) (require value element property) := by
  cases value with
  | none => exact .fail _
  | some value => exact .pure

private theorem required_carries (value : Option String) (element : Element) (property : String) :
    Carries Variable.plain (scope.required value element property)
      (scope.plain.required value element property) :=
  (require_carries value element property).andThen fun name => lookup_carries scope name

private theorem declareLocal_carries (method : MethodId) (declared : Local) :
    Carries (Option.map fun entry => (entry.1, entry.2.plain)) (declareLocal method declared)
      (declareLocal method declared.plain) := by
  refine (lookupType_carries declared.type).andThen fun type => .bind_get fun registrar => ?_
  refine Carries.inRange_same.andThen fun isReference => ?_
  cases isReference with
  | true => exact (make_carries _ _ _).bind fun _ => .pure
  | false => exact .pure

private theorem formalNames_plain (isStatic : Bool) (params : List Parameter)
    (formals : List (Option Variable)) :
    formalNames isStatic params (formals.map (Option.map Variable.plain)) =
      (formalNames isStatic params formals).map fun entry => (entry.1, entry.2.plain) := by
  unfold formalNames
  simp only [List.zip_map_right, List.filterMap_map, List.map_filterMap]
  congr 1
  funext ⟨name, formal⟩
  cases formal <;> rfl

private theorem handler_carries (declared : Catch) :
    Carries (Handler.mapVariables Variable.plain)
      (do
        let type ← lookupType declared.type
        let target ← scope.lookup declared.target
        pure (⟨type, target⟩ : Handler))
      (do
        let type ← lookupType declared.type
        let target ← scope.plain.lookup declared.target
        pure (⟨type, target⟩ : Handler)) :=
  (lookupType_carries _).bind fun _ => (lookup_carries scope _).bind fun _ => .pure

private theorem openScope_carries (method : MethodId) (body : Method) :
    Carries Scope.plain (openScope method body) (openScope method body.plain) := by
  refine .bind_get fun registrar => (summary_carries method).bind fun summary => ?_
  refine Carries.inRange_same.andThen fun methodName => ?_
  refine Carries.inRange_same.andThen fun resolved => ?_
  rw [body.plain_params, body.plain_locals, body.plain_catches, List.mapM_map]
  refine (Carries.mapM body.locals (declareLocal_carries method)).bind fun locals => ?_
  let formals := formalNames resolved.isStatic body.params summary.formals
  let scope : Scope := ⟨method, methodName, summary, (formals ++ locals.filterMap (·)).reverse, []⟩
  have bindings :
      (formalNames resolved.isStatic body.params (summary.mapVariables Variable.plain).formals ++
        (locals.map (Option.map fun entry => (entry.1, entry.2.plain))).filterMap (·)).reverse =
      scope.plain.bindings := by
    simp only [MethodSummary.mapVariables, formalNames_plain, Scope.plain, scope, formals]
    simp [List.filterMap_map, List.map_filterMap]
  dsimp only
  rw [bindings]
  exact (Carries.mapM body.catches (handler_carries scope)).bind fun _ => .pure

private theorem labelPoint_carries (points : List (PointId × Operands)) (label : String) :
    Carries id (labelPoint scope points label) (labelPoint scope points label) := by
  unfold labelPoint
  cases labelled? points label with
  | none => exact .fail _
  | some point => exact .pure

private theorem targets_carries (points : List (PointId × Operands)) (exit next : PointId)
    (element : Element) (operands : Operands) :
    Carries id (targets scope points exit next element operands)
      (targets scope points exit next element operands) := by
  unfold targets
  split
  · exact .pure
  · exact .pure
  · exact (labelPoint_carries scope _ _).andThen fun _ => .pure
  · exact (labelPoint_carries scope _ _).andThen fun _ => .pure
  · exact .pure

private theorem controlFlow_carries (statements : List (Element × Operands)) (sites : List Nat) :
    Carries id (controlFlow scope statements sites) (controlFlow scope.plain statements sites) := by
  refine (onPoints_carries _).andThen fun ends => ?_
  refine (Carries.mapM_same sites fun site => onPoints_carries _).andThen fun points => ?_
  refine (Carries.mapM_same _ fun entry => ?_).andThen fun edges => ?_
  · exact (targets_carries scope _ _ _ _ _).andThen fun _ => .pure
  · exact (Carries.forM _ fun edge => addSuccessor_carries _ _).andThen fun _ => .pure

private theorem lookupField_carries (type : TypeId) (name : String) :
    Carries id (lookupField type name) (lookupField type name) := by
  refine .bind_get fun registrar => ?_
  rw [plain_hierarchy]
  cases registrar.hierarchy.lookupField type name with
  | ok field => exact .pure
  | error failure => exact .throw _

private theorem lookupMethod_carries (name : String) :
    Carries id (lookupMethod name) (lookupMethod name) := by
  refine .bind_get fun registrar => ?_
  rw [plain_hierarchy]
  cases registrar.hierarchy.lookupMethod name with
  | ok method => exact .pure
  | error cause => exact .fail _

private theorem fieldOf_carries (element : Element) (operands : Operands) (base : Option Variable) :
    Carries id (fieldOf element operands base)
      (fieldOf element operands (base.map Variable.plain)) := by
  refine (require_carries _ _ _).andThen fun name => ?_
  cases operands.className with
  | some className => exact (lookupType_carries _).andThen fun _ => lookupField_carries _ _
  | none =>
      cases base with
      | some base => exact lookupField_carries _ _
      | none => exact .fail _

private theorem initializersOf_carries (type : TypeId) :
    Carries id (initializersOf type) (initializersOf type) :=
  .bind_get fun _ => .inRange_same

private theorem callKind_carries (kind : Option String) :
    Carries id (callKind kind) (callKind kind) := by
  unfold callKind
  split
  · exact .pure
  · exact .pure
  · exact .pure
  · exact .pure
  · exact .pure
  · exact .fail _

private theorem arguments_carries (types : List TypeId) (names : List String) :
    Carries (List.map (Option.map Variable.plain)) (arguments scope types names)
      (arguments scope.plain types names) := by
  induction types generalizing names with
  | nil => exact .pure
  | cons type types ih =>
      cases names with
      | nil => exact (ih []).bind fun _ => .pure
      | cons name names =>
          refine .bind_get fun registrar => Carries.inRange_same.andThen fun isReference => ?_
          have rest : ∀ passed : Option Variable,
              Carries (List.map (Option.map Variable.plain))
                (arguments scope types names >>= fun others => pure (passed :: others))
                (arguments scope.plain types names >>= fun others =>
                  pure (passed.map Variable.plain :: others)) :=
            fun passed => (ih names).bind fun _ => .pure
          split
          · refine (lookup_carries scope name).bind fun passed => ?_
            exact rest (some passed)
          · exact rest none

private theorem callOf_carries (operands : Operands) (site : Nat) :
    Carries (Call.mapVariables Variable.plain) (callOf scope operands site)
      (callOf scope.plain operands site) := by
  refine (require_carries _ _ _).andThen fun name => ?_
  refine (lookupMethod_carries name).andThen fun callee => ?_
  refine (callKind_carries operands.kind).andThen fun kind => ?_
  have rest : ∀ receiver : Option Variable, Carries (Call.mapVariables Variable.plain)
      (do
        let declared ← inRange ((← get).hierarchy.method? callee)
        let args ← arguments scope declared.params (Text.splitList operands.args)
        let result ← operands.target.mapM scope.lookup
        let exception ← onVariables
          (·.make (.callException scope.method site) TypeTable.throwableType false)
        pure ⟨kind, callee, receiver, args, result, exception⟩)
      (do
        let declared ← inRange ((← get).hierarchy.method? callee)
        let args ← arguments scope.plain declared.params (Text.splitList operands.args)
        let result ← operands.target.mapM scope.plain.lookup
        let exception ← onVariables
          (·.make (.callException scope.method site) TypeTable.throwableType false)
        pure ⟨kind, callee, receiver.map Variable.plain, args, result, exception⟩) := by
    intro receiver
    refine .bind_get fun registrar => Carries.inRange_same.andThen fun declared => ?_
    refine (arguments_carries scope _ _).bind fun args => ?_
    refine (Carries.option_mapM _ (lookup_carries scope)).bind fun result => ?_
    exact (make_carries _ _ _).bind fun exception => .pure
  cases kind with
  | static => exact rest none
  | virtual => exact (required_carries scope _ _ _).bind fun receiver => rest (some receiver)
  | special => exact (required_carries scope _ _ _).bind fun receiver => rest (some receiver)

private theorem staticField_carries (element : Element) (operands : Operands) :
    Carries (fun answer => (answer.1.plain, answer.2)) (actionOf.staticField element operands)
      (actionOf.staticField element operands) := by
  refine (fieldOf_carries _ _ none).andThen fun id => .bind_get fun registrar => ?_
  refine Carries.inRange_same.andThen fun field => ?_
  refine (make_carries _ _ _).bind fun made => ?_
  exact (initializersOf_carries _).andThen fun initializers => .pure

private theorem actionOf_carries (element : Element) (operands : Operands) (site : Nat) :
    Carries (Option.map (Action.mapVariables Variable.plain))
      (actionOf scope element operands site) (actionOf scope.plain element operands site) := by
  unfold actionOf
  have needed := required_carries scope
  cases element with
  | new =>
      refine (needed _ _ _).bind fun target => (require_carries _ _ _).andThen fun name => ?_
      exact (lookupType_carries name).andThen fun type => .pure
  | newArray =>
      refine (needed _ _ _).bind fun target => (require_carries _ _ _).andThen fun name => ?_
      exact (lookupType_carries _).andThen fun type => .pure
  | copy =>
      refine (Carries.option_mapM _ lookupType_carries).bind fun cast => ?_
      rw [Option.map_id]
      exact (needed _ _ _).bind fun target => (needed _ _ _).bind fun source => .pure
  | phi =>
      refine (Carries.mapM _ fun name => lookup_carries scope name).bind fun sources => ?_
      exact (needed _ _ _).bind fun target => .pure
  | load =>
      refine (needed _ _ _).bind fun base => ?_
      refine (fieldOf_carries _ _ (some base)).andThen fun field => ?_
      exact (needed _ _ _).bind fun target => .pure
  | arrayLoad =>
      exact (needed _ _ _).bind fun base => (needed _ _ _).bind fun target => .pure
  | store =>
      refine (needed _ _ _).bind fun base => ?_
      refine (fieldOf_carries _ _ (some base)).andThen fun field => ?_
      exact (needed _ _ _).bind fun source => .pure
  | arrayStore =>
      exact (needed _ _ _).bind fun base => (needed _ _ _).bind fun source => .pure
  | getStatic =>
      exact (needed _ _ _).bind fun target => (staticField_carries _ _).bind fun answer => .pure
  | putStatic =>
      exact (needed _ _ _).bind fun source => (staticField_carries _ _).bind fun answer => .pure
  | call => exact (callOf_carries scope _ _).bind fun made => .pure
  | «return» =>
      cases operands.source with
      | none => exact .pure
      | some name =>
          have same : scope.plain.summary.result = scope.summary.result.map Variable.plain := rfl
          rw [same]
          cases scope.summary.result with
          | none => exact .pure
          | some result => exact (lookup_carries scope name).bind fun source => .pure
  | throw => exact (needed _ _ _).bind fun source => .pure
  | classInit =>
      refine (require_carries _ _ _).andThen fun name => ?_
      refine (lookupType_carries name).andThen fun type => ?_
      exact (initializersOf_carries _).andThen fun initializers => .pure

private theorem registerElement_carries (element : Element) (operands : Operands) (site : Nat)
    (point : PointId) :
    Carries id (registerElement scope element operands site point)
      (registerElement scope.plain element operands site point) := by
  refine (actionOf_carries scope element operands site).bind fun action => ?_
  cases action with
  | none => exact .pure
  | some action =>
      refine (register_carries ⟨scope.method, site, some point, action⟩).andThen fun _ => ?_
      cases action with
      | call made => exact (register_carries ⟨_, _, _, _⟩).andThen fun _ => .pure
      | _ => exact .pure

private theorem loadMethod_carries (className : String) (body : Method) :
    Carries id (loadMethod className body) (loadMethod className body.plain) := by
  refine (lookupMethod_carries _).andThen fun method => ?_
  refine (openScope_carries method body).bind fun scope => ?_
  rw [body.plain_statements]
  refine (controlFlow_carries scope _ _).andThen fun points => ?_
  exact .forM _ fun entry => registerElement_carries scope _ _ _ _

private theorem loadInto_carries (program : Program) :
    Carries ObjectFlow.Program.plain program.loadInto program.plain.loadInto := by
  unfold Program.loadInto Program.plain
  simp only [List.forM_eq_forM, List.forM_map]
  refine .andThen (.forM _ fun declared => ?_) fun _ => .bind_get fun registrar => ?_
  · rw [declared.plain_methods, List.forM_map]
    exact .forM _ fun body => loadMethod_carries _ _
  · rw [plain_hierarchy]
    cases registrar.hierarchy.lookupMethod program.entry with
    | error cause => exact .fail _
    | ok entry =>
        refine .andThen (modify_carries fun _ => rfl) fun _ => ?_
        refine Carries.inRange_same.andThen fun method => ?_
        refine (initializersOf_carries _).andThen fun initializers => ?_
        refine .andThen (.forM _ fun method => modify_carries fun registrar => ?_) fun _ =>
          finish_carries
        have same : registrar.plain.initializers = registrar.initializers := rfl
        rw [same]
        split <;> rfl

/-- Clearing the flags of a declaration clears them in the loaded program. -/
theorem load_plain {declared : Program} {program : ObjectFlow.Program}
    (loaded : declared.load = .ok program) : declared.plain.load = .ok program.plain := by
  unfold Program.load at loaded ⊢
  rw [declared.hierarchy_plain]
  cases built : declared.hierarchy with
  | error failure =>
      rw [built] at loaded
      cases loaded
  | ok hierarchy =>
      rw [built] at loaded
      have loaded : (declared.loadInto (Registrar.empty hierarchy)).1 = .ok program := loaded
      have run := loadInto_carries declared (Registrar.empty hierarchy) program _
        (Prod.ext loaded rfl)
      exact congrArg Prod.fst run

end Declaration

end ObjectFlow
