import ObjectFlow.Proofs.Program.Scoping

/-!
# Where loaded programs read and write

Every statement of a method body gets the point of its site; only the routing of
what a call throws has none, and that reads a variable of its own.  So a
flow-sensitive variable is written without a point only as the target of a
handler, and whatever point writes one is the point of the only statement there.
-/

namespace ObjectFlow

/-! ## Loading -/

namespace Declaration

open Registrar

variable {declared : Program} {base later : Registrar} {scope : Scope} {body : Method}

/-- Every site gets a point of its own. -/
theorem controlFlow_yields (statements : List (Element × Operands)) (sites : List Nat) :
    Yields declared base (controlFlow scope statements sites) fun later points =>
      List.Forall₂ (fun site point =>
        later.points.points[point]? = some ⟨scope.method, .statement site⟩) sites points := by
  refine (methodPoints_yields scope.method).bind fun _ ends _ _ => ?_
  refine (Yields.mapM (fun site _ => addPoint_yields scope.method site)
    fun site _ _ _ grown found => grown.points _ _ found).bind fun first points _ placed => ?_
  refine .andThen (fun _ => .mapM fun entry _ => ?_) fun edges => ?_
  · exact (targets_keeps _ _ _ _ _).andThen fun _ => .pure trivial
  · refine (Yields.forM fun edge _ => addSuccessor_yields _ _).bind fun second _ grown _ => ?_
    refine .pure fun last grown' => placed.imp fun site point found => ?_
    exact (grown.trans grown').points _ _ found

private theorem holds_of_passesAll {hierarchy : Hierarchy} {table : VariableTable} {id : MethodId}
    {types : List TypeId} {names : List String} {args : List (Option Variable)}
    (passes : body.PassesAll hierarchy table id types names args) {arg : Variable}
    (member : some arg ∈ args) : table.Holds arg := by
  obtain ⟨index, isArg⟩ := List.mem_iff_getElem?.mp member
  have inRange : index < types.length := passes.1 ▸ (List.getElem?_eq_some_iff.mp isArg).1
  obtain ⟨_, _, _, _, isNamed⟩ := passes.2 index _ _ (List.getElem?_eq_getElem inRange) isArg
  exact (Method.assignable_of_named? isNamed).holds

private theorem callOf_yields (placed : scope.Placed base body) (operands : Operands) (site : Nat) :
    Yields declared base (callOf scope operands site) fun later call =>
      call.Described later.hierarchy later.variableTable scope.method body operands site ∧
        (∀ declared ∈ (Action.call call).used, later.variableTable.Holds declared) ∧
        (∀ result, call.result = some result → later.variableTable.Assignable result) ∧
        later.variableTable.HoldsPlain call.exception := by
  refine (require_yields operands.method .call "method").bind fun zero name grown₀ isName => ?_
  refine (lookupMethod_yields name).bind fun first callee grown₁ isCallee => ?_
  refine .andThen (fun _ => callKind_keeps _) fun kind => ?_
  have grown := grown₀.trans grown₁
  have rest : ∀ between receiver, first.Extends between →
      (∀ declared, receiver = some declared → between.variableTable.Holds declared) →
      Yields declared between (do
        let declared ← inRange ((← get).hierarchy.method? callee)
        let args ← arguments scope declared.params (Text.splitList operands.args)
        let result ← operands.target.mapM scope.lookup
        let exception ← onVariables
          (·.make (.callException scope.method site) TypeTable.throwableType false)
        pure (⟨kind, callee, receiver, args, result, exception⟩ : Call)) fun later call =>
          call.Described later.hierarchy later.variableTable scope.method body operands site ∧
            (∀ declared ∈ (Action.call call).used, later.variableTable.Holds declared) ∧
            (∀ result, call.result = some result → later.variableTable.Assignable result) ∧
            later.variableTable.HoldsPlain call.exception := by
    intro between receiver grown₂ received
    refine .bind_get fun registrar grown₃ _ => ?_
    refine .bind_inRange fun method isMethod => ?_
    have isNamed := placed.named.extend ((grown.trans grown₂).trans grown₃)
    refine (arguments_yields isNamed _ _).bind fun second args grown₄ passes => ?_
    refine (Yields.option_mapM (fun name _ => (lookup_yields (isNamed.extend grown₄) name).mono
      fun _ _ _ found => Method.assignable_of_named? found) lasting_assignable).bind
        fun third result grown₅ assigned => ?_
    have isKnown : VariableOrigin.Known third.hierarchy (.callException scope.method site) := by
      obtain ⟨caller, isCaller, _⟩ := placed.described.formals
      rw [← ((((grown.trans grown₂).trans grown₃).trans grown₄).trans grown₅).hierarchy] at isCaller
      exact ⟨caller, isCaller⟩
    refine (make_yields _ isKnown _ _).bind
      fun fourth exception grown₆ made => .pure fun last grown₇ => ?_
    have later := (grown₅.trans grown₆).trans grown₇
    have passes := passes.grow later.table
    have isThrown := grown₇.table.find? made.1
    refine ⟨⟨⟨name, method, isName, ?_, ?_, ?_⟩, isThrown⟩, fun declared used => ?_,
      fun target same => ?_, VariableTable.holds_of_find? isThrown, made.2 rfl⟩
    · rw [later.hierarchy, grown₄.hierarchy, grown₃.hierarchy, grown₂.hierarchy]
      exact isCallee
    · rw [later.hierarchy, grown₄.hierarchy]
      exact isMethod
    · rw [later.hierarchy]
      exact passes
    · rcases List.mem_append.mp used with isReceiver | isArg
      · refine (received declared (Option.mem_toList.mp isReceiver)).grow ?_
        exact ((grown₃.trans grown₄).trans later).table
      · obtain ⟨_, listed, rfl⟩ := List.mem_filterMap.mp isArg
        exact holds_of_passesAll passes listed
    · exact (assigned target same).grow (grown₆.trans grown₇).table
  dsimp only
  split
  · rw [pure_bind]
    exact rest first none (.refl first) nofun
  · refine (required_yields (placed.named.extend grown) _ _ _).bind
      fun between receiver grown₂ holds => ?_
    rw [pure_bind]
    refine rest between (some receiver) grown₂ ?_
    rintro _ ⟨⟩
    exact holds.holds

/-! ## Statements -/

structure Fits (declared : Program) (registrar : Registrar) (statement : Statement) : Prop where
  placed : statement.Placed registrar
  sourced : statement.Sourced declared registrar.hierarchy registrar.variableTable

private theorem Fits.extend {statement : Statement} (fits : Fits declared base statement)
    (grown : base.Extends later) : Fits declared later statement where
  placed := fits.placed.extend grown
  sourced := grown.hierarchy ▸ fits.sourced.grow grown.table

/-- The action of an element fits and is what the element stands for.  Only a `return` may have
none. -/
structure FitsElement (declared : Program) (registrar : Registrar) (scope : Scope) (body : Method)
    (element : Element) (operands : Operands) (site : Nat) (point : PointId)
    (action : Option Action) : Prop where
  fits : ∀ found, action = some found →
    Fits declared registrar ⟨scope.method, site, some point, found⟩
  means : ∀ found, action = some found → found.Means registrar.hierarchy registrar.variableTable
    scope.method body site operands element
  present : element ≠ .return → ∃ found, action = some found

section Actions

variable {site : Nat} {point : PointId} {element : Element} {operands : Operands}

private theorem fits_of_assignment {action : Action}
    (isBody : (scope.method, body) ∈ declared.bodies base.hierarchy)
    (declares : body.Declares site element operands)
    (means : action.Means base.hierarchy base.variableTable scope.method body site operands element)
    (here : base.points.points[point]? = some ⟨scope.method, .statement site⟩)
    (reads : ∀ declared ∈ action.used, base.variableTable.Holds declared)
    (assigns : ∀ target, action.defined? = some target → base.variableTable.Assignable target)
    (triggers : ∀ method ∈ action.triggered, base.hierarchy.Names method)
    (only : (⟨scope.method, site, some point, action⟩ : Statement).writes =
      (action.defined?.map fun target => (target, some point)).toList) :
    Fits declared base ⟨scope.method, site, some point, action⟩ := by
  have written : ∀ write ∈ (⟨scope.method, site, some point, action⟩ : Statement).writes,
      action.defined? = some write.1 ∧ write.2 = some point := by
    intro write member
    rw [only] at member
    obtain ⟨target, isTarget, rfl⟩ := Option.map_eq_some_iff.mp (Option.mem_toList.mp member)
    exact ⟨isTarget, rfl⟩
  have noReturn : ∀ source summary, action ≠ .return source summary := by
    rintro source summary rfl
    cases (written (summary, none) List.mem_cons_self).2
  have noCall : ∀ call, action ≠ .call call := by
    rintro call rfl
    cases (written (call.exception, none) (List.mem_append_right _ List.mem_cons_self)).2
  have noRaise : ∀ source handlers summary, action ≠ .raise source handlers summary := by
    rintro source handlers summary rfl
    cases (written (summary, none) (List.mem_append_right _ List.mem_cons_self)).2
  refine ⟨⟨reads, fun write member => (assigns _ (written write member).1).holds, nofun, ?_, ?_⟩,
    ⟨triggers, ?_, fun _ _ same => absurd same (noReturn _ _),
      .inl ⟨body, element, operands, isBody, declares, means⟩,
      fun _ _ _ same => absurd same (noRaise _ _ _)⟩⟩
  · intro write member none
    cases (written write member).2.symm.trans none
  · rintro _ ⟨⟩
    exact here
  · intro target member
    rcases Action.assigned_cases member with isTarget | handled | ⟨source, same⟩ | ⟨call, same, _⟩
    · exact assigns target isTarget
    · cases action with
      | raise source handlers summary => exact absurd rfl (noRaise source handlers summary)
      | _ => cases handled
    · exact absurd same (noReturn source target)
    · exact absurd same (noCall call)

private theorem fits_of_call {call : Call}
    (here : base.points.points[point]? = some ⟨scope.method, .statement site⟩)
    (isBody : (scope.method, body) ∈ declared.bodies base.hierarchy)
    (declares : body.Declares site .call operands) (described : call.Described base.hierarchy
      base.variableTable scope.method body operands site)
    (reads : ∀ declared ∈ (Action.call call).used, base.variableTable.Holds declared)
    (assigns : ∀ result, call.result = some result → base.variableTable.Assignable result)
    (throws : base.variableTable.HoldsPlain call.exception) :
    Fits declared base ⟨scope.method, site, some point, .call call⟩ := by
  refine ⟨⟨reads, fun write member => ?_, nofun, fun write member none => ?_, ?_⟩,
    ⟨by simp [Action.triggered], ?_, nofun,
      .inl ⟨body, .call, operands, isBody, declares, .call described⟩, nofun⟩⟩
  · rcases List.mem_append.mp member with result | thrown
    · obtain ⟨target, isTarget, rfl⟩ := Option.map_eq_some_iff.mp (Option.mem_toList.mp result)
      exact (assigns target isTarget).holds
    · obtain rfl := List.mem_singleton.mp thrown
      exact throws.1
  · rcases List.mem_append.mp member with result | thrown
    · obtain ⟨target, isTarget, rfl⟩ := Option.map_eq_some_iff.mp (Option.mem_toList.mp result)
      cases none
    · obtain rfl := List.mem_singleton.mp thrown
      exact .inl throws.2
  · rintro _ ⟨⟩
    exact here
  · intro target member
    rcases List.mem_cons.mp member with rfl | result
    · exact ⟨_, described.exception, nofun⟩
    · exact assigns target (Option.mem_toList.mp result)

private theorem fits_of_return (placed : scope.Placed base body) {source result : Variable}
    (isBody : (scope.method, body) ∈ declared.bodies base.hierarchy)
    (declares : body.Declares site .return operands)
    (here : base.points.points[point]? = some ⟨scope.method, .statement site⟩)
    (reads : base.variableTable.Holds source) (isResult : scope.summary.result = some result) :
    Fits declared base ⟨scope.method, site, some point, .return source result⟩ := by
  have returns := placed.summary result (by simp [MethodSummary.slots, isResult])
  refine ⟨⟨?_, ?_, (fun none => by cases none), ?_, ?_⟩, ⟨by simp [Action.triggered], ?_, ?_,
    .inl ⟨body, .return, operands, isBody, declares, .return⟩, fun _ _ _ other => by cases other⟩⟩
  · intro declared used
    obtain rfl := List.mem_singleton.mp used
    exact reads
  · intro write member
    obtain rfl := List.mem_singleton.mp member
    exact returns.1
  · intro write member _
    obtain rfl := List.mem_singleton.mp member
    exact .inl returns.2
  · rintro _ ⟨⟩
    exact here
  · intro target member
    obtain rfl := List.mem_singleton.mp member
    exact ⟨_, placed.described.result _ isResult, fun _ other => by cases other⟩
  · rintro _ _ ⟨⟩
    exact placed.described.result result isResult

theorem fits_of_raise (placed : scope.Placed base body)
    (isBody : (scope.method, body) ∈ declared.bodies base.hierarchy) {source : Variable}
    {place : Option PointId} (reads : base.variableTable.Holds source)
    (unread : place = none → source.flowSensitive = false)
    (here : ∀ point, place = some point →
      base.points.points[point]? = some ⟨scope.method, .statement site⟩) :
    Fits declared base
      ⟨scope.method, site, place, .raise source scope.handlers scope.summary.exception⟩ := by
  have throws := placed.summary scope.summary.exception (by simp [MethodSummary.slots])
  refine ⟨⟨?_, ?_, ?_, ?_, here⟩, ⟨by simp [Action.triggered], ?_,
    (fun _ _ other => by cases other), .inr ⟨source, _, _, rfl⟩, ?_⟩⟩
  · intro declared used
    obtain rfl := List.mem_singleton.mp used
    exact reads
  · intro write member
    rcases List.mem_append.mp member with handled | thrown
    · obtain ⟨handler, listed, rfl⟩ := List.mem_map.mp handled
      exact (placed.handlers handler listed).holds
    · obtain rfl := List.mem_singleton.mp thrown
      exact throws.1
  · intro none declared used
    obtain rfl := List.mem_singleton.mp used
    exact unread none
  · intro write member _
    rcases List.mem_append.mp member with handled | thrown
    · obtain ⟨handler, listed, rfl⟩ := List.mem_map.mp handled
      exact .inr (List.mem_map_of_mem listed)
    · obtain rfl := List.mem_singleton.mp thrown
      exact .inl throws.2
  · intro target member
    obtain ⟨handler, listed, rfl⟩ := List.mem_map.mp member
    exact placed.handlers handler listed
  · rintro _ _ _ ⟨⟩
    exact ⟨placed.described.exception, body, isBody, placed.caught⟩

private theorem staticField_yields (element : Element) (operands : Operands) :
    Yields declared base (actionOf.staticField element operands) fun later answer =>
      later.variableTable.Assignable answer.1 ∧
        (∀ method ∈ answer.2, later.hierarchy.Names method) ∧
        ∃ type, operands.Accesses later.hierarchy later.variableTable answer.1 type ∧
          later.hierarchy.classInitializersFor? type = some answer.2 := by
  refine (fieldOf_yields _ _ _).bind fun first number _ found => ?_
  obtain ⟨type, fieldName, isName, isNumber, isNone⟩ := found
  obtain ⟨className, isClass, isType⟩ := isNone rfl
  refine .bind_get fun second grown₂ _ => .bind_inRange fun field isField => ?_
  refine (make_yields (.staticField number) ⟨field, isField⟩ _ _).bind
    fun third made grown₃ holds => ?_
  refine (initializersOf_yields _).bind fun fourth initializers grown₄ ⟨triggers, names⟩ => ?_
  refine .pure fun last grown₅ => ?_
  have isMade := (grown₄.trans grown₅).table.find? holds.1
  have grown := grown₃.trans (grown₄.trans grown₅)
  refine ⟨⟨_, isMade, nofun⟩, grown₅.hierarchy ▸ names, field.declaring,
    ⟨className, fieldName, type, number, field, isClass, isName, ?_, ?_, ?_, rfl, isMade⟩, ?_⟩
  · rw [grown.hierarchy, grown₂.hierarchy]
    exact isType
  · rw [grown.hierarchy, grown₂.hierarchy]
    exact isNumber
  · rw [grown.hierarchy]
    exact isField
  · rw [grown₅.hierarchy]
    exact triggers

private theorem answered_yields {action : Action}
    (means : action.Means base.hierarchy base.variableTable scope.method body site operands element)
    (fits : Fits declared base ⟨scope.method, site, some point, action⟩) :
    Yields declared base (pure (some action)) fun later =>
      FitsElement declared later scope body element operands site point := by
  refine .pure fun later grown => ⟨fun found same => ?_, fun found same => ?_, fun _ => ⟨_, rfl⟩⟩
  · cases same
    exact fits.extend grown
  · cases same
    exact grown.hierarchy ▸ means.grow grown.table

theorem assigned_yields {action : Action}
    (isBody : (scope.method, body) ∈ declared.bodies base.hierarchy)
    (declares : body.Declares site element operands)
    (here : base.points.points[point]? = some ⟨scope.method, .statement site⟩)
    (grown : base.Extends later)
    (means : action.Means later.hierarchy later.variableTable scope.method body site operands
      element)
    (reads : ∀ declared ∈ action.used, later.variableTable.Holds declared)
    (assigns : ∀ target, action.defined? = some target → later.variableTable.Assignable target)
    (triggers : ∀ method ∈ action.triggered, later.hierarchy.Names method)
    (only : (⟨scope.method, site, some point, action⟩ : Statement).writes =
      (action.defined?.map fun target => (target, some point)).toList) :
    Yields declared later (pure (some action)) fun last =>
      FitsElement declared last scope body element operands site point :=
  answered_yields means (fits_of_assignment (grown.hierarchy ▸ isBody) declares means
    (grown.points _ _ here) reads assigns triggers only)

section Elements

variable (placed : scope.Placed base body)
  (isBody : (scope.method, body) ∈ declared.bodies base.hierarchy)
  (here : base.points.points[point]? = some ⟨scope.method, .statement site⟩)

include placed isBody here

private theorem actionOf_new_yields (declares : body.Declares site .new operands) :
    Yields declared base (actionOf scope .new operands site) fun later =>
      FitsElement declared later scope body .new operands site point := by
  unfold actionOf
  refine (required_yields placed.named _ _ _).bind fun first target grown holds => ?_
  refine (require_yields _ _ _).bind fun second name grown₂ isName => ?_
  refine (lookupType_yields name).bind fun third type grown₃ isType => ?_
  have later := grown₂.trans grown₃
  exact assigned_yields isBody declares here (grown.trans later) (.new isName isType)
    (by simp [Action.used]) (by simpa [Action.defined?] using holds.grow later.table)
    (by simp [Action.triggered]) rfl

private theorem actionOf_newArray_yields (declares : body.Declares site .newArray operands) :
    Yields declared base (actionOf scope .newArray operands site) fun later =>
      FitsElement declared later scope body .newArray operands site point := by
  unfold actionOf
  refine (required_yields placed.named _ _ _).bind fun first target grown holds => ?_
  refine (require_yields _ _ _).bind fun second name grown₂ isName => ?_
  refine (lookupType_yields _).bind fun third type grown₃ isType => ?_
  have later := grown₂.trans grown₃
  exact assigned_yields isBody declares here (grown.trans later) (.newArray isName rfl isType)
    (by simp [Action.used]) (by simpa [Action.defined?] using holds.grow later.table)
    (by simp [Action.triggered]) rfl

private theorem actionOf_copy_yields (declares : body.Declares site .copy operands) :
    Yields declared base (actionOf scope .copy operands site) fun later =>
      FitsElement declared later scope body .copy operands site point := by
  unfold actionOf
  have isCast : Yields declared base (operands.type.mapM lookupType) fun later cast =>
      ∀ type, cast = some type → ∃ name, later.hierarchy.lookupType name = some type :=
    .option_mapM (fun name _ => (lookupType_yields name).mono fun _ _ _ found => ⟨name, found⟩)
      fun _ _ _ grown found => grown.hierarchy ▸ found
  refine isCast.bind fun first cast grown isCast => ?_
  refine (required_yields (placed.named.extend grown) _ _ _).bind
    fun second target grown₂ holds => ?_
  have grown' := grown.trans grown₂
  refine (required_yields (placed.named.extend grown') _ _ _).bind
    fun third source grown₃ holds' => ?_
  have later := grown₂.trans grown₃
  exact assigned_yields isBody declares here (grown.trans later)
    (.copy (later.hierarchy ▸ isCast))
    (by simpa [Action.used] using holds'.holds)
    (by simpa [Action.defined?] using holds.grow grown₃.table) (by simp [Action.triggered]) rfl

private theorem actionOf_phi_yields (declares : body.Declares site .phi operands) :
    Yields declared base (actionOf scope .phi operands site) fun later =>
      FitsElement declared later scope body .phi operands site point := by
  unfold actionOf
  refine (Yields.mapM_all (fun name _ => (lookup_yields placed.named name).mono
    fun _ _ _ found => Method.assignable_of_named? found) lasting_assignable).bind
      fun first sources grown holds => ?_
  refine (required_yields (placed.named.extend grown) _ _ _).bind
    fun second target grown' holds' => ?_
  exact assigned_yields isBody declares here (grown.trans grown') .phi
    (fun source used => ((holds source used).grow grown'.table).holds)
    (by simpa [Action.defined?] using holds') (by simp [Action.triggered]) rfl

private theorem actionOf_load_yields (declares : body.Declares site .load operands) :
    Yields declared base (actionOf scope .load operands site) fun later =>
      FitsElement declared later scope body .load operands site point := by
  unfold actionOf
  refine (required_yields placed.named _ _ _).bind fun first base grown holds => ?_
  refine (fieldOf_yields _ _ _).bind fun second number grown₂ answer => ?_
  obtain ⟨_, _, _, isNumber, _⟩ := answer
  obtain ⟨field, isField⟩ := Hierarchy.field?_of_lookupField isNumber
  have grown' := grown.trans grown₂
  refine (required_yields (placed.named.extend grown') _ _ _).bind
    fun third target grown₃ holds' => ?_
  have later := grown₂.trans grown₃
  exact assigned_yields isBody declares here (grown.trans later)
    (.load (grown₃.hierarchy ▸ isField))
    (by simpa [Action.used] using (holds.grow later.table).holds)
    (by simpa [Action.defined?] using holds') (by simp [Action.triggered]) rfl

private theorem actionOf_arrayLoad_yields (declares : body.Declares site .arrayLoad operands) :
    Yields declared base (actionOf scope .arrayLoad operands site) fun later =>
      FitsElement declared later scope body .arrayLoad operands site point := by
  unfold actionOf
  refine (required_yields placed.named _ _ _).bind fun first base grown holds => ?_
  refine (required_yields (placed.named.extend grown) _ _ _).bind
    fun second target grown' holds' => ?_
  exact assigned_yields isBody declares here (grown.trans grown') .arrayLoad
    (by simpa [Action.used] using (holds.grow grown'.table).holds)
    (by simpa [Action.defined?] using holds') (by simp [Action.triggered]) rfl

private theorem actionOf_store_yields (declares : body.Declares site .store operands) :
    Yields declared base (actionOf scope .store operands site) fun later =>
      FitsElement declared later scope body .store operands site point := by
  unfold actionOf
  refine (required_yields placed.named _ _ _).bind fun first base grown holds => ?_
  refine (fieldOf_yields _ _ _).bind fun second number grown₂ answer => ?_
  obtain ⟨_, _, _, isNumber, _⟩ := answer
  obtain ⟨field, isField⟩ := Hierarchy.field?_of_lookupField isNumber
  have grown' := grown.trans grown₂
  refine (required_yields (placed.named.extend grown') _ _ _).bind
    fun third source grown₃ holds' => ?_
  have later := grown₂.trans grown₃
  exact assigned_yields isBody declares here (grown.trans later)
    (.store (grown₃.hierarchy ▸ isField))
    (by simpa [Action.used] using ⟨(holds.grow later.table).holds, holds'.holds⟩)
    (by simp [Action.defined?]) (by simp [Action.triggered]) rfl

private theorem actionOf_arrayStore_yields (declares : body.Declares site .arrayStore operands) :
    Yields declared base (actionOf scope .arrayStore operands site) fun later =>
      FitsElement declared later scope body .arrayStore operands site point := by
  unfold actionOf
  refine (required_yields placed.named _ _ _).bind fun first base grown holds => ?_
  refine (required_yields (placed.named.extend grown) _ _ _).bind
    fun second source grown' holds' => ?_
  exact assigned_yields isBody declares here (grown.trans grown') .arrayStore
    (by simpa [Action.used] using ⟨(holds.grow grown'.table).holds, holds'.holds⟩)
    (by simp [Action.defined?]) (by simp [Action.triggered]) rfl

private theorem actionOf_getStatic_yields (declares : body.Declares site .getStatic operands) :
    Yields declared base (actionOf scope .getStatic operands site) fun later =>
      FitsElement declared later scope body .getStatic operands site point := by
  unfold actionOf
  refine (required_yields placed.named _ _ _).bind fun first target grown holds => ?_
  refine (staticField_yields _ _).bind fun second answer grown' made => ?_
  obtain ⟨holds', names, type, accesses, triggers⟩ := made
  exact assigned_yields isBody declares here (grown.trans grown') (.getStatic accesses triggers)
    (by simpa [Action.used] using holds'.holds)
    (by simpa [Action.defined?] using holds.grow grown'.table) names rfl

private theorem actionOf_putStatic_yields (declares : body.Declares site .putStatic operands) :
    Yields declared base (actionOf scope .putStatic operands site) fun later =>
      FitsElement declared later scope body .putStatic operands site point := by
  unfold actionOf
  refine (required_yields placed.named _ _ _).bind fun first source grown holds => ?_
  refine (staticField_yields _ _).bind fun second answer grown' made => ?_
  obtain ⟨holds', names, type, accesses, triggers⟩ := made
  exact assigned_yields isBody declares here (grown.trans grown') (.putStatic accesses triggers)
    (by simpa [Action.used] using (holds.grow grown'.table).holds)
    (by simpa [Action.defined?] using holds') names rfl

private theorem actionOf_call_yields (declares : body.Declares site .call operands) :
    Yields declared base (actionOf scope .call operands site) fun later =>
      FitsElement declared later scope body .call operands site point := by
  unfold actionOf
  refine (callOf_yields placed _ _).bind fun between made grown holds => ?_
  obtain ⟨described, reads, assigns, throws⟩ := holds
  exact answered_yields (.call described) (fits_of_call (grown.points _ _ here)
    (grown.hierarchy ▸ isBody) declares described reads assigns throws)

private theorem actionOf_return_yields (declares : body.Declares site .return operands) :
    Yields declared base (actionOf scope .return operands site) fun later =>
      FitsElement declared later scope body .return operands site point := by
  unfold actionOf
  dsimp only
  split
  · next result _ isResult =>
      refine (lookup_yields placed.named _).bind fun between source grown found => ?_
      exact answered_yields .return (fits_of_return (placed.extend grown)
        (grown.hierarchy ▸ isBody) declares (grown.points _ _ here)
        (Method.assignable_of_named? found).holds isResult)
  · exact .pure fun _ _ => ⟨by simp, by simp, by simp⟩

private theorem actionOf_throw_yields :
    Yields declared base (actionOf scope .throw operands site) fun later =>
      FitsElement declared later scope body .throw operands site point := by
  unfold actionOf
  refine (required_yields placed.named _ _ _).bind fun between source grown holds => ?_
  refine answered_yields .throw (fits_of_raise (placed.extend grown) (grown.hierarchy ▸ isBody)
    holds.holds (by simp) ?_)
  rintro _ ⟨⟩
  exact grown.points _ _ here

omit placed in
private theorem actionOf_classInit_yields (declares : body.Declares site .classInit operands) :
    Yields declared base (actionOf scope .classInit operands site) fun later =>
      FitsElement declared later scope body .classInit operands site point := by
  unfold actionOf
  refine (require_yields _ _ _).bind fun first name grown isName => ?_
  refine (lookupType_yields name).bind fun second type grown₂ isType => ?_
  refine (initializersOf_yields _).bind fun third initializers grown₃ answer => ?_
  obtain ⟨triggers, names⟩ := answer
  exact assigned_yields isBody declares here ((grown.trans grown₂).trans grown₃)
    (.classInit isName (grown₃.hierarchy ▸ isType) triggers)
    (by simp [Action.used]) (by simp [Action.defined?]) names rfl

private theorem actionOf_yields (declares : body.Declares site element operands) :
    Yields declared base (actionOf scope element operands site) fun later =>
      FitsElement declared later scope body element operands site point := by
  cases element with
  | new => exact actionOf_new_yields placed isBody here declares
  | newArray => exact actionOf_newArray_yields placed isBody here declares
  | copy => exact actionOf_copy_yields placed isBody here declares
  | phi => exact actionOf_phi_yields placed isBody here declares
  | load => exact actionOf_load_yields placed isBody here declares
  | arrayLoad => exact actionOf_arrayLoad_yields placed isBody here declares
  | store => exact actionOf_store_yields placed isBody here declares
  | arrayStore => exact actionOf_arrayStore_yields placed isBody here declares
  | getStatic => exact actionOf_getStatic_yields placed isBody here declares
  | putStatic => exact actionOf_putStatic_yields placed isBody here declares
  | call => exact actionOf_call_yields placed isBody here declares
  | «return» => exact actionOf_return_yields placed isBody here declares
  | throw => exact actionOf_throw_yields placed isBody here
  | classInit => exact actionOf_classInit_yields isBody here declares

end Elements

def Registers (registrar : Registrar) (id : MethodId) (body : Method) (site : Nat)
    (element : Element) (operands : Operands) : Prop :=
  ∃ point action, ⟨id, site, point, action⟩ ∈ registrar.statements ∧
    action.Means registrar.hierarchy registrar.variableTable id body site operands element ∧
    ∀ call, action = .call call → ∃ handlers summary,
      ⟨id, site + 1, none, .raise call.exception handlers summary⟩ ∈ registrar.statements

theorem Registers.extend {id : MethodId} (registers : Registers base id body site element operands)
    (grown : base.Extends later) : Registers later id body site element operands := by
  obtain ⟨point, action, isThere, means, routes⟩ := registers
  refine ⟨point, action, grown.statements isThere, grown.hierarchy ▸ means.grow grown.table, ?_⟩
  intro call isCall
  obtain ⟨handlers, summary, isRouting⟩ := routes call isCall
  exact ⟨handlers, summary, grown.statements isRouting⟩

private theorem registerElement_yields (placed : scope.Placed base body)
    (isBody : (scope.method, body) ∈ declared.bodies base.hierarchy)
    (declares : body.Declares site element operands)
    (here : base.points.points[point]? = some ⟨scope.method, .statement site⟩) :
    Yields declared base (registerElement scope element operands site point) fun later _ =>
      element ≠ .return → Registers later scope.method body site element operands := by
  refine (actionOf_yields placed isBody here declares).bind fun first action grown answer => ?_
  cases action with
  | none =>
      refine .pure fun _ _ other => ?_
      obtain ⟨_, isNone⟩ := answer.present other
      cases isNone
  | some action =>
      have fits := answer.fits action rfl
      have means := answer.means action rfl
      refine (register_yields fits.placed fits.sourced).bind fun second _ grown' isThere => ?_
      have means := means.grow grown'.table
      cases action with
      | call made =>
          have thrown : (made.exception, none) ∈
              (⟨scope.method, site, some point, .call made⟩ : Statement).writes :=
            List.mem_append_right _ List.mem_cons_self
          have plain : made.exception.flowSensitive = false :=
            (fits.placed.unwritten _ thrown rfl).resolve_right (by simp [Action.handled])
          have grown := grown.trans grown'
          have routed : Fits declared second ⟨scope.method, site + 1, none,
              .raise made.exception scope.handlers scope.summary.exception⟩ :=
            fits_of_raise (placed.extend grown) (grown.hierarchy ▸ isBody)
              ((fits.placed.writes _ thrown).grow grown'.table) (fun _ => plain)
              (fun _ none => by cases none)
          refine (register_yields routed.placed routed.sourced).bind
            fun third _ grown₂ isRouting => .pure fun last grown₃ _ => ?_
          have registers : Registers third scope.method body site element operands := by
            refine ⟨some point, .call made, grown₂.statements isThere, ?_, ?_⟩
            · rw [grown₂.hierarchy, grown'.hierarchy]
              exact means.grow grown₂.table
            · rintro _ ⟨⟩
              exact ⟨_, _, isRouting⟩
          exact registers.extend grown₃
      | _ =>
          have registers : Registers second scope.method body site element operands := by
            refine ⟨_, _, isThere, ?_, fun _ other => by cases other⟩
            rw [grown'.hierarchy]
            exact means
          exact .pure fun _ grown₂ _ => registers.extend grown₂

end Actions

private theorem loadMethod_yields {className : String}
    (listed : ∀ id, base.hierarchy.lookupMethod s!"{className}.{body.name}" = .ok id →
      (id, body) ∈ declared.bodies base.hierarchy) :
    Yields declared base (loadMethod className body) fun later _ =>
      ∀ id, later.hierarchy.lookupMethod s!"{className}.{body.name}" = .ok id →
        ∀ site element operands, body.Declares site element operands → element ≠ .return →
          Registers later id body site element operands := by
  refine (lookupMethod_yields _).bind fun first id grown₁ isMethod => ?_
  refine (openScope_yields id body).bind fun second scope grown₂ ⟨placed, same⟩ => ?_
  subst same
  refine (controlFlow_yields _ _).bind fun third points grown₃ located => ?_
  have isBody : (scope.method, body) ∈ declared.bodies third.hierarchy := by
    rw [grown₃.hierarchy, grown₂.hierarchy, grown₁.hierarchy]
    rw [grown₁.hierarchy] at isMethod
    exact listed scope.method isMethod
  have each : ∀ entry ∈ (body.statements.zip (sitesFrom 0 body.statements)).zip points,
      Yields declared third (registerElement scope entry.1.1.1 entry.1.1.2 entry.1.2 entry.2)
        fun later _ => entry.1.1.1 ≠ .return →
          Registers later scope.method body entry.1.2 entry.1.1.1 entry.1.1.2 := by
    intro entry member
    refine registerElement_yields (placed.extend grown₃) isBody (List.of_mem_zip member).1 ?_
    obtain ⟨index, found⟩ := List.mem_iff_getElem?.mp member
    obtain ⟨foundEntry, foundPoint⟩ := List.getElem?_zip_eq_some.mp found
    obtain ⟨_, foundSite⟩ := List.getElem?_zip_eq_some.mp foundEntry
    obtain ⟨_, isPoint, isLocated⟩ := forall₂_getElem?_left located foundSite
    cases foundPoint.symm.trans isPoint
    exact isLocated
  refine (Yields.forM_all each fun _ _ _ grown registers other =>
    (registers other).extend grown).mono ?_
  intro last _ grown₄ all id isId site element operands declares
  rw [grown₄.hierarchy, grown₃.hierarchy, grown₂.hierarchy, isMethod] at isId
  cases isId
  obtain ⟨index, foundEntry⟩ := List.mem_iff_getElem?.mp declares
  obtain ⟨_, foundSite⟩ := List.getElem?_zip_eq_some.mp foundEntry
  obtain ⟨point, isPoint, _⟩ := forall₂_getElem?_left located foundSite
  refine all (((element, operands), site), point) (List.mem_iff_getElem?.mpr ⟨index, ?_⟩)
  exact List.getElem?_zip_eq_some.mpr ⟨foundEntry, isPoint⟩

theorem mem_bodies {hierarchy : Hierarchy} {id : MethodId} :
    (id, body) ∈ declared.bodies hierarchy ↔ ∃ owner ∈ declared.classes, body ∈ owner.methods ∧
      hierarchy.lookupMethod s!"{owner.name}.{body.name}" = .ok id := by
  unfold Program.bodies
  simp only [List.mem_flatMap, List.mem_filterMap, Option.map_eq_some_iff, Prod.mk.injEq]
  constructor
  · rintro ⟨owner, isOwner, body, isBody, _, isId, rfl, rfl⟩
    refine ⟨owner, isOwner, isBody, ?_⟩
    cases found : hierarchy.lookupMethod s!"{owner.name}.{body.name}" <;> rw [found] at isId
    · cases isId
    · cases isId
      rfl
  · rintro ⟨owner, isOwner, isBody, isId⟩
    exact ⟨owner, isOwner, body, isBody, id, by rw [isId]; rfl, rfl, rfl⟩

/-- Loading ends with a registrar that has the statements of all bodies. -/
theorem loadInto_yields (declared : Program) :
    Yields declared base declared.loadInto fun _ program => ∃ registrar : Registrar,
      registrar.Placed declared ∧ registrar.Finishes program ∧
        ∀ id body, (id, body) ∈ declared.bodies registrar.hierarchy →
          ∀ site element operands, body.Declares site element operands → element ≠ .return →
            Registers registrar id body site element operands := by
  have each : ∀ owner ∈ declared.classes, Yields declared base
      (owner.methods.forM fun body => loadMethod owner.name body) fun later _ =>
        ∀ body ∈ owner.methods, ∀ id,
          later.hierarchy.lookupMethod s!"{owner.name}.{body.name}" = .ok id →
          ∀ site element operands, body.Declares site element operands → element ≠ .return →
            Registers later id body site element operands := by
    intro owner isOwner
    refine Yields.forM_all (fun body isBody => loadMethod_yields fun id found => ?_) ?_
    · exact mem_bodies.mpr ⟨owner, isOwner, isBody, found⟩
    · intro body _ _ grown all id found site element operands declares other
      rw [grown.hierarchy] at found
      exact (all id found site element operands declares other).extend grown
  refine (Yields.forM_all each ?_).bind fun first _ grown₁ all =>
    .bind_get fun registrar grown₂ _ => ?_
  · intro owner _ _ grown all body isBody id found site element operands declares other
    rw [grown.hierarchy] at found
    exact (all body isBody id found site element operands declares other).extend grown
  dsimp only
  split
  · exact .fail _
  · refine (setEntry_yields _).bind fun second _ grown₃ _ => ?_
    refine .bind_inRange fun method _ => ?_
    refine (initializersOf_yields _).bind fun third initializers grown₄ ⟨triggers, _⟩ => ?_
    refine Yields.bind (.forM fun method listed => addInitializer_yields
      (Hierarchy.isInitializer_of_mem triggers listed)) fun fourth _ grown₅ _ =>
        finish_yields.mono fun _ program _ done => ?_
    obtain ⟨registrar, grown₆, placed, finishes⟩ := done
    have grown := (((grown₂.trans grown₃).trans grown₄).trans grown₅).trans grown₆
    refine ⟨registrar, placed, finishes, ?_⟩
    intro id body isBody site element operands declares other
    obtain ⟨owner, isOwner, isMethod, found⟩ := mem_bodies.mp isBody
    rw [grown.hierarchy] at found
    exact (all owner isOwner body isMethod id found site element operands declares other).extend
      grown

theorem load_registrar {declared : Program} {program : ObjectFlow.Program}
    (loaded : declared.load = .ok program) : ∃ registrar : Registrar,
      registrar.Placed declared ∧ registrar.Finishes program ∧
        ∀ id body, (id, body) ∈ declared.bodies registrar.hierarchy →
          ∀ site element operands, body.Declares site element operands → element ≠ .return →
            Registers registrar id body site element operands := by
  unfold Program.load at loaded
  cases built : declared.hierarchy with
  | error failure =>
      rw [built] at loaded
      cases loaded
  | ok hierarchy =>
      rw [built] at loaded
      have start : (Registrar.empty hierarchy).Placed declared :=
        ⟨hierarchy_linked built, nofun, by simp [Registrar.empty], by simp [Registrar.empty], .nil,
          by simp [Registrar.empty], by simp [Registrar.empty]⟩
      have loaded : (declared.loadInto (Registrar.empty hierarchy)).1 = .ok program := loaded
      have run : declared.loadInto (Registrar.empty hierarchy) =
          (.ok program, (declared.loadInto (Registrar.empty hierarchy)).2) := Prod.ext loaded rfl
      exact (loadInto_yields declared _ (.refl _) start program _ run).2.2

end Declaration

/-! ## Loaded programs -/

/-- Flow-sensitive variables are read and written at points, handlers apart, and the points that
write them exist. -/
structure Program.Placed (program : Program) : Prop where
  reads : ∀ statement ∈ program.statements, ∀ declared ∈ statement.action.used,
    (∃ id, program.variableTable.payload? id = some declared) ∧
      (declared.flowSensitive = true → ∃ point, statement.point = some point)
  writes : ∀ statement ∈ program.statements, ∀ write ∈ statement.writes,
    (∃ id, program.variableTable.payload? id = some write.1) ∧
      (write.1.flowSensitive = true → write.1 ∈ statement.action.handled ∨
        ∃ point, write.2 = some point ∧ program.flow.writes write.1.id point = true)
  points : ∀ id point, program.flow.writes id point = true →
    ∃ place, program.flow.point? point = some place

namespace Registrar

variable {declared : Declaration.Program} {registrar : Registrar}

private theorem payload?_of_holds {table : VariableTable} {declared : Variable}
    (holds : table.Holds declared) : ∃ id, table.payload? id = some declared := by
  obtain ⟨id, origin, found⟩ := holds
  exact ⟨id, by rw [Interner.payload?, found]; rfl⟩

private theorem Placed.eq_of_point (placed : registrar.Placed declared)
    {statement other : Statement} (member : statement ∈ registrar.statements)
    (member' : other ∈ registrar.statements) {point : PointId}
    (isPoint : statement.point = some point) (isPoint' : other.point = some point) :
    statement = other := by
  have here := (placed.statements statement member).point point isPoint
  have there := (placed.statements other member').point point isPoint'
  have same := Option.some.inj (here.symm.trans there)
  simp only [Point.mk.injEq, PointKind.statement.injEq] at same
  by_contra differ
  exact placed.distinct.forall member member' differ same

/-- A point writes just the variable that its statement assigns. -/
theorem Placed.writes_iff (placed : registrar.Placed declared) {point : PointId} {id : VariableId} :
    ControlFlow.writes ⟨registrar.points, registrar.statements.filterMap Statement.kill?⟩ id point =
        true ↔
      ∃ statement ∈ registrar.statements, statement.kill? = some (point, id) := by
  have listed : ∀ other, (point, other) ∈
      (registrar.statements.filterMap Statement.kill?).reverse ↔
        ∃ statement ∈ registrar.statements, statement.kill? = some (point, other) := by
    intro other
    rw [List.mem_reverse, List.mem_filterMap]
  unfold ControlFlow.writes ControlFlow.killOf?
  rw [decide_eq_true_iff, ← listed]
  constructor
  · exact mem_of_lookup
  · intro member
    cases found : (registrar.statements.filterMap Statement.kill?).reverse.lookup point with
    | none => simpa using List.lookup_eq_none_iff.mp found _ member
    | some other =>
        obtain ⟨statement, isStatement, kills⟩ := (listed id).mp member
        obtain ⟨statement', isStatement', kills'⟩ := (listed other).mp (mem_of_lookup found)
        obtain ⟨target, isTarget, isPoint, _, rfl⟩ := Statement.kill?_eq_some.mp kills
        obtain ⟨target', isTarget', isPoint', _, rfl⟩ := Statement.kill?_eq_some.mp kills'
        obtain rfl := placed.eq_of_point isStatement isStatement' isPoint isPoint'
        rw [Option.some.inj (isTarget'.symm.trans isTarget)]

end Registrar

theorem Declaration.load_placed {declared : Declaration.Program} {program : ObjectFlow.Program}
    (loaded : declared.load = .ok program) : program.Placed := by
  obtain ⟨registrar, placed, finishes, _⟩ := load_registrar loaded
  obtain ⟨_, table, flow, statements, _, _, _⟩ := finishes
  refine ⟨?_, ?_, ?_⟩
  · intro statement member variable' used
    rw [statements] at member
    have here := placed.statements statement member
    rw [table]
    refine ⟨Registrar.payload?_of_holds (here.reads _ used), fun sensitive => ?_⟩
    cases isPoint : statement.point with
    | none => exact absurd sensitive (by simp [here.unread isPoint _ used])
    | some point => exact ⟨point, rfl⟩
  · intro statement member write written
    rw [statements] at member
    have here := placed.statements statement member
    rw [table]
    refine ⟨Registrar.payload?_of_holds (here.writes _ written), fun sensitive => ?_⟩
    cases isPoint : write.2 with
    | none => exact .inl ((here.unwritten write written isPoint).resolve_left (by simp [sensitive]))
    | some point =>
        obtain ⟨isTarget, isPoint⟩ := Statement.defined?_of_writes
          (show (write.1, some point) ∈ statement.writes from isPoint ▸ written)
        refine .inr ⟨point, rfl, ?_⟩
        rw [flow, placed.writes_iff]
        exact ⟨statement, member, Statement.kill?_eq_some.mpr
          ⟨write.1, isTarget, isPoint, sensitive, rfl⟩⟩
  · intro id point writes
    rw [flow, placed.writes_iff] at writes
    obtain ⟨statement, member, kills⟩ := writes
    obtain ⟨_, _, isPoint, _⟩ := Statement.kill?_eq_some.mp kills
    rw [flow]
    exact ⟨_, (placed.statements statement member).point point isPoint⟩

end ObjectFlow
