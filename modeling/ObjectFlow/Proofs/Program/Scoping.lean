import ObjectFlow.Proofs.Program.Registering

/-!
# The scopes of method bodies

Opening the scope of a body binds its names in the order of declaration, and the
last binding of a name is found first.  So what is looked up in a scope is what
the name stands for in the body, handlers and arguments of calls included.
-/

namespace ObjectFlow.Declaration

open Registrar

def BoundAs (table : VariableTable) (declared : String × VariableOrigin)
    (bound : String × Variable) : Prop :=
  declared.1 = bound.1 ∧ table.find? declared.2 = some bound.2

def Scope.Named (registrar : Registrar) (body : Method) (scope : Scope) : Prop :=
  List.Forall₂ (BoundAs registrar.variableTable)
    (body.declarations registrar.hierarchy scope.method).reverse scope.bindings

structure Scope.Placed (registrar : Registrar) (body : Method) (scope : Scope) : Prop where
  named : scope.Named registrar body
  caught : List.Forall₂ (fun caught handler => body.handler? registrar.hierarchy
      registrar.variableTable scope.method caught = some handler) body.catches scope.handlers
  described : scope.summary.Described registrar.hierarchy registrar.variableTable scope.method
  summary : ∀ declared, some declared ∈ scope.summary.slots →
    registrar.variableTable.HoldsPlain declared

variable {declared : Program} {base later : Registrar} {scope : Scope} {body : Method}

theorem Scope.Named.extend (named : scope.Named base body) (grown : base.Extends later) :
    scope.Named later body := by
  unfold Named
  rw [grown.hierarchy]
  exact List.Forall₂.imp (fun _ _ here => ⟨here.1, grown.table.find? here.2⟩) named

theorem Scope.Placed.extend (placed : scope.Placed base body) (grown : base.Extends later) :
    scope.Placed later body where
  named := placed.named.extend grown
  caught := by
    rw [grown.hierarchy]
    exact placed.caught.imp fun _ _ here => Method.handler?_grow grown.table here
  described := by
    rw [grown.hierarchy]
    exact placed.described.grow grown.table
  summary declared member := (placed.summary declared member).grow grown.table

theorem Scope.Placed.handlers (placed : scope.Placed base body) (handler : Handler)
    (member : handler ∈ scope.handlers) : base.variableTable.Assignable handler.target := by
  obtain ⟨index, found⟩ := List.mem_iff_getElem?.mp member
  obtain ⟨caught, _, isHandler⟩ := forall₂_getElem?_right placed.caught found
  exact Method.assignable_of_handler? isHandler

/-! ## Looking up -/

private theorem lookup_of_forall₂ {table : VariableTable}
    {declarations : List (String × VariableOrigin)} {bindings : List (String × Variable)}
    (binds : List.Forall₂ (BoundAs table) declarations bindings)
    {name : String} {found : Variable} (isBound : bindings.lookup name = some found) :
    (declarations.lookup name).bind table.find? = some found := by
  induction binds with
  | nil => cases isBound
  | @cons first bound _ _ here _ ih =>
      obtain ⟨declaredName, origin⟩ := first
      obtain ⟨boundName, known⟩ := bound
      obtain ⟨rfl, isKnown⟩ := here
      rw [List.lookup_cons] at isBound ⊢
      cases isName : name == declaredName with
      | true =>
          rw [isName] at isBound
          cases isBound
          exact isKnown
      | false =>
          rw [isName] at isBound
          exact ih isBound

theorem lookup_yields (named : scope.Named base body) (name : String) :
    Yields declared base (scope.lookup name) fun later found =>
      body.named? later.hierarchy later.variableTable scope.method name = some found := by
  unfold Scope.lookup
  split
  · next found isBound =>
      exact .pure fun later grown => lookup_of_forall₂ (named.extend grown) isBound
  · exact .fail _

theorem required_yields (named : scope.Named base body) (value : Option String)
    (element : Element) (property : String) :
    Yields declared base (scope.required value element property) fun later =>
      later.variableTable.Assignable := by
  refine .andThen (fun _ => require_keeps value element property) fun name => ?_
  exact (lookup_yields named name).mono fun _ _ _ isNamed => Method.assignable_of_named? isNamed

theorem lookupType_yields (name : String) :
    Yields declared base (lookupType name) fun later type =>
      later.hierarchy.lookupType name = some type := by
  refine .bind_get fun registrar _ _ => ?_
  split
  · next type found => exact .pure fun later grown => by rw [grown.hierarchy]; exact found
  · exact .fail _

theorem lookupMethod_yields (name : String) :
    Yields declared base (lookupMethod name) fun later method =>
      later.hierarchy.lookupMethod name = .ok method := by
  refine .bind_get fun registrar _ _ => ?_
  split
  · next method found => exact .pure fun later grown => by rw [grown.hierarchy]; exact found
  · exact .fail _

theorem initializersOf_yields (type : TypeId) :
    Yields declared base (initializersOf type) fun later initializers =>
      later.hierarchy.classInitializersFor? type = some initializers ∧
        ∀ method ∈ initializers, later.hierarchy.Names method := by
  refine .bind_get fun registrar _ placed => .of_keeps (fun _ => .inRange fun _ found => found) ?_
  intro later initializers grown found
  rw [grown.hierarchy]
  exact ⟨found, fun method member => Hierarchy.names_of_linked placed.linked found member⟩

theorem require_yields (value : Option String) (element : Element) (property : String) :
    Yields declared base (require value element property) fun _ name => value = some name := by
  unfold require
  split
  · next name => exact .pure fun _ _ => rfl
  · exact .fail _

private theorem lookupField_yields (type : TypeId) (name : String) :
    Yields declared base (lookupField type name) fun later number =>
      later.hierarchy.lookupField type name = .ok number := by
  refine .bind_get fun registrar _ _ => ?_
  split
  · next number found => exact .pure fun later grown => by rw [grown.hierarchy]; exact found
  · exact .throw _

theorem fieldOf_yields (element : Element) (operands : Operands) (given : Option Variable) :
    Yields declared base (fieldOf element operands given) fun later number =>
      ∃ type fieldName, operands.field = some fieldName ∧
        later.hierarchy.lookupField type fieldName = .ok number ∧
        (given = none → ∃ className, operands.className = some className ∧
          later.hierarchy.lookupType className = some type) := by
  refine (require_yields _ _ _).bind fun first name grown isName => ?_
  dsimp only
  split
  · next className isClass =>
      refine (lookupType_yields className).bind fun second type grown' isType => ?_
      refine (lookupField_yields type name).mono fun last number grown'' found =>
        ⟨type, name, isName, found, fun _ => ⟨className, isClass, ?_⟩⟩
      rw [grown''.hierarchy]
      exact isType
  · next variable' =>
      rw [pure_bind]
      exact (lookupField_yields _ name).mono fun _ _ _ found => ⟨_, name, isName, found, nofun⟩
  · have never : Yields declared first (fail (.missingAttribute element.tag "class"))
        fun _ (_ : TypeId) => False := .fail _
    exact never.bind fun _ _ _ impossible => impossible.elim

/-! ## Scopes -/

def Local.Bound (registrar : Registrar) (id : MethodId) (declared : Local) :
    Option (String × Variable) → Prop
  | some bound => (registrar.hierarchy.lookupType declared.type).bind
      registrar.hierarchy.isReference? = some true ∧ bound.1 = declared.name ∧
        registrar.variableTable.find? (.local id declared.name) = some bound.2
  | none => (registrar.hierarchy.lookupType declared.type).bind
      registrar.hierarchy.isReference? = some false

private theorem Local.Bound.extend {id : MethodId} {declared : Local}
    {bound : Option (String × Variable)} (isBound : declared.Bound base id bound)
    (grown : base.Extends later) : declared.Bound later id bound := by
  cases bound with
  | none =>
      unfold Bound at isBound ⊢
      rw [grown.hierarchy]
      exact isBound
  | some bound =>
      unfold Bound at isBound ⊢
      rw [grown.hierarchy]
      exact ⟨isBound.1, isBound.2.1, grown.table.find? isBound.2.2⟩

private theorem declareLocal_yields {method : MethodId}
    (isMethod : ∃ found, base.hierarchy.method? method = some found) (given : Local) :
    Yields declared base (declareLocal method given) fun later bound =>
      given.Bound later method bound := by
  refine (lookupType_yields _).bind fun first type grown₁ isType =>
    .bind_get fun registrar grown _ => ?_
  refine .bind_inRange fun isReference found => ?_
  have known : ∀ last, registrar.Extends last → (last.hierarchy.lookupType given.type).bind
      last.hierarchy.isReference? = some isReference := by
    intro last grown'
    rw [grown'.hierarchy, grown.hierarchy, isType]
    rw [grown.hierarchy] at found
    exact found
  split
  · next isTrue =>
      rw [← (grown₁.trans grown).hierarchy] at isMethod
      refine (make_yields (.local method given.name) isMethod _ _).bind
        fun third made grown₂ holds => .pure fun last grown₃ => ?_
      exact ⟨isTrue ▸ known last (grown₂.trans grown₃), rfl, grown₃.table.find? holds.1⟩
  · next isFalse =>
      rw [Bool.not_eq_true] at isFalse
      subst isFalse
      exact .pure known

private theorem formalNames_finds {table : VariableTable} {names : List String}
    {origins : List (Option VariableOrigin)} {formals : List (Option Variable)}
    (finds : List.Forall₂ table.Finds origins formals) :
    List.Forall₂ (BoundAs table)
      ((names.zip origins).filterMap fun (name, origin) => origin.map fun found => (name, found))
      ((names.zip formals).filterMap fun (name, formal) =>
        formal.map fun found => (name, found)) := by
  induction finds generalizing names with
  | nil => simp
  | @cons origin formal _ _ here _ ih =>
      cases names with
      | nil => simp
      | cons name names =>
          cases origin with
          | none =>
              cases formal with
              | none => simpa using ih
              | some formal => cases here
          | some origin =>
              cases formal with
              | none => cases here
              | some formal => simpa using ⟨⟨rfl, here⟩, ih⟩

private theorem locals_bound {registrar : Registrar} {id : MethodId} {locals : List Local}
    {bound : List (Option (String × Variable))}
    (all : List.Forall₂ (fun declared bound => declared.Bound registrar id bound) locals bound) :
    List.Forall₂ (BoundAs registrar.variableTable)
      (locals.filterMap fun declared =>
        if (registrar.hierarchy.lookupType declared.type).bind registrar.hierarchy.isReference? =
            some true then
          some (declared.name, .local id declared.name)
        else
          none) (bound.filterMap (·)) := by
  induction all with
  | nil => simp
  | @cons declared bound _ _ here _ ih =>
      cases bound with
      | none =>
          have other : (registrar.hierarchy.lookupType declared.type).bind
              registrar.hierarchy.isReference? = some false := here
          simpa [other] using ih
      | some bound =>
          obtain ⟨isReference, sameName, found⟩ := here
          simpa [isReference] using ⟨⟨sameName.symm, found⟩, ih⟩

/-- The names of a body are bound once its summary and its locals are made. -/
theorem named_of_bound {registrar : Registrar} {id : MethodId} {method : ObjectFlow.Method}
    {summary : MethodSummary} {locals : List (Option (String × Variable))}
    (isMethod : registrar.hierarchy.method? id = some method)
    (described : summary.Described registrar.hierarchy registrar.variableTable id)
    (bound : List.Forall₂ (fun declared bound => declared.Bound registrar id bound) body.locals
      locals) :
    List.Forall₂ (BoundAs registrar.variableTable)
      (body.declarations registrar.hierarchy id).reverse
      (formalNames method.isStatic body.params summary.formals ++
        locals.filterMap (·)).reverse := by
  obtain ⟨method', isMethod', finds⟩ := described.formals
  cases isMethod.symm.trans isMethod'
  unfold Method.declarations
  rw [isMethod]
  exact List.forall₂_reverse_iff.mpr
    (List.rel_append (formalNames_finds finds) (locals_bound bound))

theorem openScope_yields (id : MethodId) (body : Method) :
    Yields declared base (openScope id body) fun later scope =>
      scope.Placed later body ∧ scope.method = id := by
  refine .bind_get fun registrar _ _ => ?_
  refine (summary_yields id).bind fun first summary grown₁ known => ?_
  refine .bind_inRange fun name _ => ?_
  refine .bind_inRange fun method isMethod => ?_
  rw [← grown₁.hierarchy] at isMethod
  refine (Yields.mapM (fun declared _ => declareLocal_yields ⟨method, isMethod⟩ declared)
    fun _ _ _ _ grown bound => bound.extend grown).bind fun second locals grown₂ bound => ?_
  obtain ⟨-, described, plain⟩ := known
  rw [← grown₂.hierarchy] at isMethod
  rw [← grown₂.hierarchy] at described
  have named : Scope.Named second body ⟨id, name, summary, (formalNames method.isStatic body.params
      summary.formals ++ locals.filterMap (·)).reverse, []⟩ :=
    named_of_bound isMethod (described.grow grown₂.table) bound
  have handled : ∀ caught ∈ body.catches, Yields declared second (do
      let type ← lookupType caught.type
      let target ← Scope.lookup ⟨id, name, summary, (formalNames method.isStatic body.params
        summary.formals ++ locals.filterMap (·)).reverse, []⟩ caught.target
      pure (⟨type, target⟩ : Handler)) fun later handler =>
        body.handler? later.hierarchy later.variableTable id caught = some handler := by
    intro caught _
    refine (lookupType_yields _).bind fun _ type grown isType => ?_
    refine (lookup_yields (named.extend grown) _).bind fun _ target grown' isNamed => ?_
    refine .pure fun last grown'' => Method.handler?_grow grown''.table ?_
    rw [grown''.hierarchy]
    rw [grown'.hierarchy] at isNamed ⊢
    simp [Method.handler?, isType, isNamed]
  refine (Yields.mapM handled ?_).bind fun third handlers grown₃ caught => ?_
  · intro caught _ _ handler grown isHandler
    rw [grown.hierarchy]
    exact Method.handler?_grow grown.table isHandler
  · have grown := grown₂.trans grown₃
    have placed : Scope.Placed third body ⟨id, name, summary, (formalNames method.isStatic
        body.params summary.formals ++ locals.filterMap (·)).reverse, handlers⟩ :=
      { named := named.extend grown₃
        caught := caught
        described := grown₃.hierarchy ▸ described.grow grown.table
        summary := fun slot member => (plain slot member).grow grown.table }
    exact .pure fun last grown₄ => ⟨placed.extend grown₄, rfl⟩

/-! ## Arguments -/

/-- What a call passes goes by position over the declared parameters, primitive ones included. -/
theorem arguments_yields (named : scope.Named base body) (types : List TypeId)
    (names : List String) :
    Yields declared base (arguments scope types names) fun later args =>
      body.PassesAll later.hierarchy later.variableTable scope.method types names args := by
  induction types generalizing base names with
  | nil => exact .pure fun _ _ => ⟨rfl, by simp⟩
  | cons type types ih =>
      have rest : ∀ {between : Registrar} {passed : Option Variable}, base.Extends between →
          body.Passes between.hierarchy between.variableTable scope.method type names[0]? passed →
          Yields declared between (do
            let others ← arguments scope types names.tail
            pure (passed :: others)) fun later args => body.PassesAll later.hierarchy
              later.variableTable scope.method (type :: types) names args := by
        intro between passed grown here
        refine (ih (named.extend grown) names.tail).bind fun next args grown' all => ?_
        refine .pure fun last grown'' => ?_
        rw [grown''.hierarchy]
        refine .cons (Method.Passes.grow (grown'.trans grown'').table ?_) (all.grow grown''.table)
        rw [grown'.hierarchy]
        exact here
      cases names with
      | nil => exact rest (.refl base) fun _ _ absent => by cases absent
      | cons name names =>
          refine .bind_get fun registrar grown _ => ?_
          refine .bind_inRange fun isReference known => ?_
          split
          · next passes =>
              simp only [ne_eq, decide_not, Bool.and_eq_true, Bool.not_eq_eq_eq_not, Bool.not_true,
                decide_eq_false_iff_not] at passes
              obtain ⟨rfl, other⟩ := passes
              refine (lookup_yields (named.extend grown) name).bind fun second passed grown₂
                isNamed => ?_
              rw [pure_bind]
              refine rest (grown.trans grown₂) ⟨?_, name, rfl, other, isNamed⟩
              rw [grown₂.hierarchy]
              exact known
          · next nothing =>
              rw [pure_bind]
              refine rest grown fun isTrue other same => ?_
              cases same
              by_contra differs
              cases known.symm.trans isTrue
              simp [differs] at nothing

end ObjectFlow.Declaration
