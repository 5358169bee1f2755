import ObjectFlow.Proofs.Program.Binding

/-!
# Which types a load asks for

The types that bodies name are resolved when the hierarchy is built, and are
looked up again when the bodies are loaded.  Loading asks for no other names but
the classes of fields and of initializers, and an array of no dimensions, which
it takes for one of one dimension.
-/

namespace ObjectFlow

open Effect

/-- The computation keeps the hierarchy, and the types that it misses have some of the names. -/
def AsksFor {α : Type} (hierarchy : Hierarchy) (names : List String) (computation : Register α) :
    Prop :=
  ∀ registrar : Registrar, registrar.hierarchy = hierarchy →
    (∀ name last, computation registrar = (.error (.error (.unknownType name)), last) →
      name ∈ names ∧ hierarchy.lookupType name = none) ∧
    ∀ value last, computation registrar = (.ok value, last) → last.hierarchy = hierarchy

namespace AsksFor

variable {α β : Type} {hierarchy : Hierarchy} {names names' : List String}
  {computation : Register α}

theorem pure {value : α} : AsksFor hierarchy names (pure value) := by
  intro registrar same
  refine ⟨fun _ _ failed => ?_, fun _ _ succeeded => ?_⟩
  · cases failed
  · cases succeeded
    exact same

theorem throw {failure : Failure} (other : ∀ name, failure ≠ .error (.unknownType name)) :
    AsksFor hierarchy names (throw failure : Register α) := by
  intro registrar same
  refine ⟨fun name _ failed => ?_, fun _ _ succeeded => ?_⟩
  · cases failed
    exact absurd rfl (other name)
  · cases succeeded

theorem fail {cause : Error} (other : ∀ name, cause ≠ .unknownType name) :
    AsksFor hierarchy names (fail cause : Register α) :=
  throw fun name same => other name (Failure.error.inj same)

theorem fail_bind {cause : Error} (other : ∀ name, cause ≠ .unknownType name)
    (next : α → Register β) :
    AsksFor hierarchy names ((ObjectFlow.fail cause : Register α) >>= next) :=
  fail other

theorem set {later : Registrar} (same : later.hierarchy = hierarchy) :
    AsksFor hierarchy names (set later) := by
  intro registrar _
  refine ⟨fun _ _ failed => ?_, fun _ _ succeeded => ?_⟩
  · cases failed
  · cases succeeded
    exact same

theorem modify {change : Registrar → Registrar}
    (keeps : ∀ registrar, (change registrar).hierarchy = registrar.hierarchy) :
    AsksFor hierarchy names (modify change) := by
  intro registrar same
  refine ⟨fun _ _ failed => ?_, fun _ _ succeeded => ?_⟩
  · cases failed
  · cases succeeded
    exact (keeps registrar).trans same

theorem bind {next : α → Register β} (first : AsksFor hierarchy names computation)
    (rest : ∀ value, AsksFor hierarchy names (next value)) :
    AsksFor hierarchy names (computation >>= next) := by
  intro registrar same
  obtain ⟨misses, keeps⟩ := first registrar same
  rw [run_bind]
  cases run : computation registrar with
  | mk outcome between =>
      cases outcome with
      | error failure =>
          refine ⟨fun name _ failed => ?_, fun _ _ succeeded => ?_⟩
          · cases failed
            exact misses name between run
          · cases succeeded
      | ok value => exact rest value between (keeps value between run)

theorem bind_set {later : Registrar} {next : PUnit → Register α}
    (same : later.hierarchy = hierarchy) (rest : AsksFor hierarchy names (next ⟨⟩)) :
    AsksFor hierarchy names (MonadStateOf.set later >>= next) :=
  (set same).bind fun _ => rest

theorem bind_get {next : Registrar → Register α}
    (rest : ∀ registrar : Registrar, registrar.hierarchy = hierarchy →
      AsksFor hierarchy names (next registrar)) : AsksFor hierarchy names (get >>= next) :=
  fun registrar same => rest registrar same registrar same

theorem inRange (found : Option α) :
    AsksFor hierarchy names (ObjectFlow.inRange found : Register α) := by
  cases found with
  | none => exact throw nofun
  | some value => exact pure

theorem forM {items : List β} {body : β → Register PUnit}
    (each : ∀ item ∈ items, AsksFor hierarchy names (body item)) :
    AsksFor hierarchy names (items.forM body) := by
  induction items with
  | nil => exact pure
  | cons item items ih =>
      exact (each item List.mem_cons_self).bind fun _ =>
        ih fun other member => each other (List.mem_cons_of_mem _ member)

theorem mapM {items : List β} {body : β → Register α}
    (each : ∀ item ∈ items, AsksFor hierarchy names (body item)) :
    AsksFor hierarchy names (items.mapM body) := by
  induction items with
  | nil =>
      rw [List.mapM_nil]
      exact pure
  | cons item items ih =>
      rw [List.mapM_cons]
      refine (each item List.mem_cons_self).bind fun _ => ?_
      exact (ih fun other member => each other (List.mem_cons_of_mem _ member)).bind fun _ => pure

theorem option_mapM {item : Option β} {body : β → Register α}
    (each : ∀ found ∈ item, AsksFor hierarchy names (body found)) :
    AsksFor hierarchy names (item.mapM body) := by
  cases item with
  | none => exact pure
  | some found => exact (each found rfl).bind fun _ => pure

end AsksFor

/-! ## The registrar -/

namespace Registrar

variable {α : Type} {hierarchy : Hierarchy} {names : List String}

private theorem onVariables_asks (change : VariableTable → α × VariableTable) :
    AsksFor hierarchy names (onVariables change) :=
  .bind_get fun _ same => .bind_set same .pure

private theorem onPoints_asks (change : PointGraph → α × PointGraph) :
    AsksFor hierarchy names (onPoints change) :=
  .bind_get fun _ same => .bind_set same .pure

private theorem addSuccessor_asks (source target : PointId) :
    AsksFor hierarchy names (addSuccessor source target) :=
  .bind_get fun _ same => (AsksFor.inRange _).bind fun _ => .set same

private theorem summary_asks (method : MethodId) : AsksFor hierarchy names (summary method) := by
  refine .bind_get fun registrar same => ?_
  split
  · exact .pure
  · exact (AsksFor.inRange _).bind fun _ => .bind_set same .pure

private theorem register_asks (statement : Statement) :
    AsksFor hierarchy names (register statement) := by
  refine .bind_get fun registrar same => ?_
  split
  · exact (AsksFor.inRange _).bind fun _ => .fail nofun
  · exact .bind_set same .pure

private theorem addInitializer_asks (method : MethodId) :
    AsksFor hierarchy names (addInitializer method) :=
  .modify fun registrar => by split <;> rfl

private theorem finish_asks : AsksFor hierarchy names finish := by
  refine .bind_get fun registrar _ => ?_
  split
  · exact .fail nofun
  · refine .bind_get fun registrar _ => ?_
    refine (AsksFor.forM fun method _ => (summary_asks method).bind fun _ => .pure).bind fun _ => ?_
    exact .bind_get fun _ _ => .pure

end Registrar

namespace Declaration

open Registrar

/-! ## Names that are asked for -/

def arrayText (type : String) (dims : Nat) : String :=
  type ++ String.join (List.replicate dims "[]")

def askedNames (element : Element) (operands : Operands) : List String :=
  match element with
  | .new | .copy => operands.type.toList
  | .newArray => operands.type.toList.map (arrayText · (max (operands.dims.getD 1) 1))
  | .load | .store | .getStatic | .putStatic | .classInit => operands.className.toList
  | _ => []

def Method.askedNames (method : Method) : List String :=
  method.locals.map Local.type ++ (method.catches.map Catch.type ++
    method.statements.flatMap fun entry => Declaration.askedNames entry.1 entry.2)

/-! ## Bodies -/

variable {hierarchy : Hierarchy} {names : List String} {scope : Scope}

theorem lookupType_asks {name : String} (asked : name ∈ names) :
    AsksFor hierarchy names (lookupType name) := by
  intro registrar same
  subst same
  unfold lookupType
  rw [run_bind, run_get]
  dsimp only
  cases found : registrar.hierarchy.lookupType name with
  | some type => exact AsksFor.pure registrar rfl
  | none =>
      refine ⟨fun _ _ failed => ?_, fun _ _ succeeded => ?_⟩
      · cases failed
        exact ⟨asked, found⟩
      · cases succeeded

theorem lookup_asks (name : String) : AsksFor hierarchy names (scope.lookup name) := by
  unfold Scope.lookup
  split
  · exact .pure
  · exact .fail nofun

private theorem require_asks (value : Option String) (element : Element) (property : String) :
    AsksFor hierarchy names (require value element property) := by
  unfold require
  split
  · exact .pure
  · exact .fail nofun

private theorem required_asks (value : Option String) (element : Element) (property : String) :
    AsksFor hierarchy names (scope.required value element property) :=
  (require_asks value element property).bind fun name => lookup_asks name

private theorem requireType_asks {value : Option String} (text : String → String)
    (asked : ∀ name ∈ value, text name ∈ names) (element : Element) (property : String)
    {α : Type} {next : TypeId → Register α} (rest : ∀ type, AsksFor hierarchy names (next type)) :
    AsksFor hierarchy names (do
      let name ← require value element property
      let type ← lookupType (text name)
      next type) := by
  cases value with
  | none =>
      show AsksFor hierarchy names (fail (.missingAttribute element.tag property) >>= _)
      exact .fail_bind (fun _ same => by cases same) _
  | some name => exact (lookupType_asks (asked name rfl)).bind rest

private theorem declareLocal_asks {method : MethodId} {declared : Local}
    (asked : declared.type ∈ names) :
    AsksFor hierarchy names (declareLocal method declared) := by
  refine (lookupType_asks asked).bind fun type => .bind_get fun registrar _ => ?_
  refine (AsksFor.inRange _).bind fun isReference => ?_
  split
  · exact (onVariables_asks _).bind fun _ => .pure
  · exact .pure

private theorem openScope_asks {id : MethodId} {body : Method}
    (locals : ∀ declared ∈ body.locals, declared.type ∈ names)
    (catches : ∀ declared ∈ body.catches, declared.type ∈ names) :
    AsksFor hierarchy names (openScope id body) := by
  refine .bind_get fun registrar _ => (summary_asks id).bind fun summary => ?_
  refine (AsksFor.inRange _).bind fun methodName => (AsksFor.inRange _).bind fun method => ?_
  refine (AsksFor.mapM fun declared member => declareLocal_asks (locals declared member)).bind
    fun _ => ?_
  refine (AsksFor.mapM fun declared member => ?_).bind fun _ => .pure
  exact (lookupType_asks (catches declared member)).bind fun _ =>
    (lookup_asks _).bind fun _ => .pure

private theorem labelPoint_asks (points : List (PointId × Operands)) (label : String) :
    AsksFor hierarchy names (labelPoint scope points label) := by
  unfold labelPoint
  split
  · exact .pure
  · exact .fail nofun

private theorem targets_asks (points : List (PointId × Operands)) (exit next : PointId)
    (element : Element) (operands : Operands) :
    AsksFor hierarchy names (targets scope points exit next element operands) := by
  unfold targets
  split
  · exact .pure
  · exact .pure
  · exact (labelPoint_asks _ _).bind fun _ => .pure
  · exact (labelPoint_asks _ _).bind fun _ => .pure
  · exact .pure

private theorem controlFlow_asks (statements : List (Element × Operands)) (sites : List Nat) :
    AsksFor hierarchy names (controlFlow scope statements sites) := by
  refine (onPoints_asks _).bind fun ends => ?_
  refine (AsksFor.mapM fun site _ => onPoints_asks _).bind fun points => ?_
  refine (AsksFor.mapM fun entry _ => ?_).bind fun edges => ?_
  · exact (targets_asks _ _ _ _ _).bind fun _ => .pure
  · exact (AsksFor.forM fun edge _ => addSuccessor_asks _ _).bind fun _ => .pure

private theorem lookupField_asks (type : TypeId) (name : String) :
    AsksFor hierarchy names (lookupField type name) := by
  refine .bind_get fun registrar _ => ?_
  split
  · exact .pure
  · next failure failed =>
      rcases Hierarchy.lookupField_error failed with rfl | ⟨_, rfl⟩
      · exact .throw nofun
      · exact .fail nofun

private theorem fieldOf_asks {element : Element} {operands : Operands} (base : Option Variable)
    (asked : ∀ name ∈ operands.className, name ∈ names) :
    AsksFor hierarchy names (fieldOf element operands base) := by
  refine (require_asks _ _ _).bind fun name => ?_
  have found : ∀ type, AsksFor hierarchy names (lookupField type name) :=
    fun type => lookupField_asks type name
  dsimp only
  split
  · next className isClass =>
      exact (lookupType_asks (asked className isClass)).bind found
  · exact AsksFor.pure.bind found
  · exact .fail_bind (fun _ same => by cases same) _

private theorem lookupMethod_asks (name : String) :
    AsksFor hierarchy names (lookupMethod name) := by
  refine .bind_get fun registrar _ => ?_
  split
  · exact .pure
  · next cause failed =>
      obtain rfl := Hierarchy.lookupMethod_error failed
      exact .fail nofun

private theorem initializersOf_asks (type : TypeId) :
    AsksFor hierarchy names (initializersOf type) :=
  .bind_get fun _ _ => .inRange _

private theorem callKind_asks (kind : Option String) : AsksFor hierarchy names (callKind kind) := by
  unfold callKind
  split
  · exact .pure
  · exact .pure
  · exact .pure
  · exact .pure
  · exact .pure
  · exact .fail nofun

private theorem arguments_asks (types : List TypeId) (passed : List String) :
    AsksFor hierarchy names (arguments scope types passed) := by
  induction types generalizing passed with
  | nil => exact .pure
  | cons type types ih =>
      cases passed with
      | nil => exact (ih []).bind fun _ => .pure
      | cons name rest =>
          refine .bind_get fun registrar _ => (AsksFor.inRange _).bind fun isReference => ?_
          dsimp only
          split
          · exact (lookup_asks name).bind fun _ => (ih rest).bind fun _ => .pure
          · exact (ih rest).bind fun _ => .pure

private theorem callOf_asks (operands : Operands) (site : Nat) :
    AsksFor hierarchy names (callOf scope operands site) := by
  refine (require_asks _ _ _).bind fun name => (lookupMethod_asks name).bind fun callee => ?_
  refine (callKind_asks _).bind fun kind => ?_
  have rest : ∀ receiver, AsksFor hierarchy names (do
      let declared ← inRange ((← get).hierarchy.method? callee)
      let args ← arguments scope declared.params (Text.splitList operands.args)
      let result ← operands.target.mapM scope.lookup
      let exception ← onVariables
        (·.make (.callException scope.method site) TypeTable.throwableType false)
      pure (⟨kind, callee, receiver, args, result, exception⟩ : Call)) := by
    intro receiver
    refine .bind_get fun registrar _ => (AsksFor.inRange _).bind fun method => ?_
    refine (arguments_asks _ _).bind fun args => ?_
    refine (AsksFor.option_mapM fun name _ => lookup_asks name).bind fun result => ?_
    exact (onVariables_asks _).bind fun _ => .pure
  dsimp only
  split
  · exact rest none
  · exact (required_asks _ _ _).bind fun receiver => rest (some receiver)

private theorem staticField_asks {element : Element} {operands : Operands}
    (asked : ∀ name ∈ operands.className, name ∈ names) :
    AsksFor hierarchy names (actionOf.staticField element operands) := by
  refine (fieldOf_asks _ asked).bind fun id => .bind_get fun registrar _ => ?_
  refine (AsksFor.inRange _).bind fun field => (onVariables_asks _).bind fun made => ?_
  exact (initializersOf_asks _).bind fun _ => .pure

private theorem actionOf_asks {element : Element} {operands : Operands}
    (asked : ∀ name ∈ askedNames element operands, name ∈ names) (site : Nat) :
    AsksFor hierarchy names (actionOf scope element operands site) := by
  have needed : ∀ value element property,
      AsksFor hierarchy names (scope.required value element property) := required_asks
  unfold actionOf
  cases element with
  | new =>
      refine (needed _ _ _).bind fun target => ?_
      exact requireType_asks (fun name => name)
        (fun name isType => asked name (Option.mem_toList.mpr isType)) _ _ fun _ => .pure
  | newArray =>
      refine (needed _ _ _).bind fun target => ?_
      refine requireType_asks _ (fun name isType => asked _ ?_) _ _ fun _ => .pure
      exact List.mem_map_of_mem (Option.mem_toList.mpr isType)
  | copy =>
      refine (AsksFor.option_mapM fun name isType =>
        lookupType_asks (asked name (Option.mem_toList.mpr isType))).bind fun cast => ?_
      exact (needed _ _ _).bind fun _ => (needed _ _ _).bind fun _ => .pure
  | phi =>
      refine (AsksFor.mapM fun name _ => lookup_asks name).bind fun sources => ?_
      exact (needed _ _ _).bind fun _ => .pure
  | load =>
      refine (needed _ _ _).bind fun base => ?_
      refine (fieldOf_asks _ fun name isClass => asked name (Option.mem_toList.mpr isClass)).bind
        fun field => ?_
      exact (needed _ _ _).bind fun _ => .pure
  | arrayLoad => exact (needed _ _ _).bind fun _ => (needed _ _ _).bind fun _ => .pure
  | store =>
      refine (needed _ _ _).bind fun base => ?_
      refine (fieldOf_asks _ fun name isClass => asked name (Option.mem_toList.mpr isClass)).bind
        fun field => ?_
      exact (needed _ _ _).bind fun _ => .pure
  | arrayStore => exact (needed _ _ _).bind fun _ => (needed _ _ _).bind fun _ => .pure
  | getStatic =>
      refine (needed _ _ _).bind fun target => ?_
      exact (staticField_asks fun name isClass => asked name (Option.mem_toList.mpr isClass)).bind
        fun _ => .pure
  | putStatic =>
      refine (needed _ _ _).bind fun source => ?_
      exact (staticField_asks fun name isClass => asked name (Option.mem_toList.mpr isClass)).bind
        fun _ => .pure
  | call => exact (callOf_asks _ _).bind fun _ => .pure
  | «return» =>
      dsimp only
      split
      · exact (lookup_asks _).bind fun _ => .pure
      · exact .pure
  | throw => exact (needed _ _ _).bind fun _ => .pure
  | classInit =>
      exact requireType_asks (fun name => name)
        (fun name isClass => asked name (Option.mem_toList.mpr isClass)) _ _ fun type =>
          (initializersOf_asks type).bind fun _ => .pure

private theorem registerElement_asks {element : Element} {operands : Operands}
    (asked : ∀ name ∈ askedNames element operands, name ∈ names) (site : Nat) (point : PointId) :
    AsksFor hierarchy names (registerElement scope element operands site point) := by
  refine (actionOf_asks asked site).bind fun action => ?_
  cases action with
  | none => exact .pure
  | some action =>
      refine (register_asks _).bind fun _ => ?_
      cases action with
      | call made => exact (register_asks _).bind fun _ => .pure
      | _ => exact .pure

private theorem loadMethod_asks {className : String} {body : Method}
    (asked : ∀ name ∈ body.askedNames, name ∈ names) :
    AsksFor hierarchy names (loadMethod className body) := by
  simp only [Method.askedNames, List.forall_mem_append, List.forall_mem_map, List.mem_flatMap,
    forall_exists_index, and_imp] at asked
  obtain ⟨locals, catches, statements⟩ := asked
  refine (lookupMethod_asks _).bind fun id => (openScope_asks locals catches).bind fun scope => ?_
  refine (controlFlow_asks _ _).bind fun points => .forM fun entry member => ?_
  have listed : entry.1.1 ∈ body.statements := (List.of_mem_zip (List.of_mem_zip member).1).1
  exact registerElement_asks (fun name isAsked => statements name entry.1.1 listed isAsked) _ _

/-- The names under which types are looked up when the program is loaded. -/
def Program.askedNames (program : Program) : List String :=
  program.methods.flatMap fun entry => entry.2.askedNames

private theorem loadInto_asks (program : Program) :
    AsksFor hierarchy program.askedNames program.loadInto := by
  unfold Program.loadInto
  rw [forM_methods]
  refine (AsksFor.forM fun entry member => loadMethod_asks fun name isAsked =>
    List.mem_flatMap.mpr ⟨entry, member, isAsked⟩).bind fun _ => .bind_get fun registrar _ => ?_
  dsimp only
  split
  · exact .fail nofun
  · have started : ∀ method, AsksFor hierarchy program.askedNames (setEntry method) :=
      fun _ => .modify fun _ => rfl
    refine (started _).bind fun _ => (AsksFor.inRange _).bind fun method => ?_
    refine (initializersOf_asks _).bind fun initializers => ?_
    exact (AsksFor.forM fun method _ => addInitializer_asks method).bind fun _ => finish_asks

private theorem asked_of_load {program : Program} (built : program.hierarchy = .ok hierarchy)
    {name : String} (failed : program.load = .error (.error (.unknownType name))) :
    name ∈ program.askedNames ∧ hierarchy.lookupType name = none := by
  have run : program.load = (program.loadInto (Registrar.empty hierarchy)).1 := by
    unfold Program.load
    rw [built]
    rfl
  rw [run] at failed
  exact (loadInto_asks program (.empty hierarchy) rfl).1 name _ (Prod.ext failed rfl)

/-! ## Names that are found -/

variable {program : Program}

/-- The name of a type that the program declares, or that a text of it mentions. -/
def Program.Mentions (program : Program) (name : String) : Prop :=
  name ∈ baseNames program.classes ∨
    ∃ text ∈ program.texts, Text.Mentions (baseNames program.classes) text name

/-- A name is found if it is declared or mentioned, blanks around it aside. -/
theorem lookupType_isSome_iff (built : program.hierarchy = .ok hierarchy) {name : String} :
    (hierarchy.lookupType name).isSome ↔ program.Mentions (Text.trim name) := by
  obtain ⟨_, _, shows⟩ := hierarchy_shows built
  have known : (hierarchy.lookupType name).isSome ↔
      Text.trim name ∈ hierarchy.table.types.map TypeInfo.name := by
    rw [← not_iff_not, ← TypeTable.find?_eq_none_iff]
    simp [Hierarchy.lookupType]
  rw [known]
  constructor
  · intro member
    obtain ⟨type, isName⟩ := TypeTable.mem_names_iff.mp member
    obtain ⟨description, isDescribed⟩ := exists_described? built isName
    have describes := (described?_hierarchy built).mp isDescribed
    generalize Text.trim name = written at describes ⊢
    cases describes with
    | initial found => exact .inl (List.mem_append_left _ (Sketch.mem_names_of_described? found))
    | declared member => exact .inl (List.mem_append_right _ (List.mem_map_of_mem member))
    | array isWritten mentions _ _ => exact .inr ⟨_, isWritten, mentions⟩
  · rintro (isBase | ⟨text, isWritten, mentions⟩)
    · exact shows.mem_names_of_base isBase
    · cases mentions.resolves (shows.resolved text isWritten) with
      | known isKnown =>
          rw [Text.trim_trim] at isKnown
          exact shows.mem_names_of_base isKnown
      | array isNew isArray _ _ =>
          rw [Text.trim_trim] at isNew isArray
          exact shows.complete (.array isWritten mentions isNew isArray)

private theorem lookupType_of_text (built : program.hierarchy = .ok hierarchy) {text : String}
    (isWritten : text ∈ program.texts) : (hierarchy.lookupType text).isSome :=
  (lookupType_isSome_iff built).mpr (.inr ⟨text, isWritten, .here rfl⟩)

theorem arrayText_zero (type : String) : arrayText type 0 = type := by
  simp [arrayText]

theorem arrayText_succ (type : String) (dims : Nat) :
    arrayText type (dims + 1) = arrayText (type ++ "[]") dims := by
  simp [arrayText, List.replicate_succ, String.append_assoc]

private theorem arrayText_mem_dimensionTexts {dims most : Nat} (within : dims ≤ most)
    (type : String) : arrayText type dims ∈ dimensionTexts most type := by
  induction most generalizing dims type with
  | zero =>
      obtain rfl := Nat.le_zero.mp within
      rw [arrayText_zero]
      exact List.mem_cons_self
  | succ most ih =>
      cases dims with
      | zero =>
          rw [arrayText_zero]
          exact List.mem_cons_self
      | succ dims =>
          rw [arrayText_succ]
          exact List.mem_cons_of_mem _ (ih (Nat.le_of_succ_le_succ within) _)

private theorem mem_texts_of_body {entry : Class × Method} (member : entry ∈ program.methods)
    {text : String} (isText : text ∈ entry.2.bodyTexts) : text ∈ program.texts := by
  obtain ⟨isOwner, isBody⟩ := mem_methods.mp member
  refine List.mem_append_right _ (List.mem_flatMap.mpr ⟨entry.1, isOwner, ?_⟩)
  refine List.mem_append_right _ (List.mem_flatMap.mpr ⟨entry.2, isBody, ?_⟩)
  exact List.mem_append_right _ (List.mem_append_right _ isText)

private theorem mem_bodyTexts_of_statement {body : Method} {statement : Element × Operands}
    (listed : statement ∈ body.statements) {text : String}
    (isText : text ∈ statementTexts statement.1 statement.2) : text ∈ body.bodyTexts :=
  List.mem_append_right _
    (List.mem_append_right _ (List.mem_flatMap.mpr ⟨statement, listed, isText⟩))

theorem arrayText_mem_statementTexts {element : Element} {operands : Operands} {type : String}
    (isType : type ∈ operands.type) {dims : Nat}
    (within : dims ≤ if element = .newArray then operands.dims.getD 1 else 0) :
    arrayText type dims ∈ statementTexts element operands :=
  List.mem_flatMap.mpr
    ⟨type, Option.mem_toList.mpr isType, arrayText_mem_dimensionTexts within type⟩

theorem mem_statementTexts_of_type {element : Element} {operands : Operands} {type : String}
    (isType : type ∈ operands.type) : type ∈ statementTexts element operands := by
  have isText : arrayText type 0 ∈ statementTexts element operands :=
    arrayText_mem_statementTexts isType (Nat.zero_le _)
  rwa [arrayText_zero] at isText

theorem dims_cases (dims : Option Nat) :
    dims = some 0 ∧ max (dims.getD 1) 1 = 1 ∨
      dims ≠ some 0 ∧ max (dims.getD 1) 1 = dims.getD 1 := by
  cases dims with
  | none => simp
  | some count => cases count <;> simp

private theorem askedNames_cases {element : Element} {operands : Operands} {name : String}
    (asked : name ∈ askedNames element operands) :
    name ∈ statementTexts element operands ∨ operands.className = some name ∨
      element = .newArray ∧ operands.dims = some 0 ∧
        ∃ type ∈ operands.type, name = type ++ "[]" := by
  have ofType : name ∈ operands.type.toList → name ∈ statementTexts element operands :=
    fun isType => mem_statementTexts_of_type (Option.mem_toList.mp isType)
  have ofClass : name ∈ operands.className.toList → operands.className = some name :=
    Option.mem_toList.mp
  cases element with
  | new => exact .inl (ofType asked)
  | copy => exact .inl (ofType asked)
  | newArray =>
      obtain ⟨type, isType, rfl⟩ := List.mem_map.mp asked
      have isType := Option.mem_toList.mp isType
      rcases dims_cases operands.dims with ⟨isZero, same⟩ | ⟨_, same⟩
      · rw [same, arrayText_succ, arrayText_zero]
        exact .inr (.inr ⟨rfl, isZero, type, isType, rfl⟩)
      · rw [same]
        exact .inl (arrayText_mem_statementTexts isType (Nat.le_refl _))
  | load => exact .inr (.inl (ofClass asked))
  | store => exact .inr (.inl (ofClass asked))
  | getStatic => exact .inr (.inl (ofClass asked))
  | putStatic => exact .inr (.inl (ofClass asked))
  | classInit => exact .inr (.inl (ofClass asked))
  | phi => cases asked
  | arrayLoad => cases asked
  | arrayStore => cases asked
  | call => cases asked
  | «return» => cases asked
  | throw => cases asked

/-- What the hierarchy of a program resolves, loading the program finds again: the types of locals
and handlers, and the types that statements name, those of arrays in as many dimensions as they are
allocated in.  An array of no dimensions is allocated in one, which has been resolved only if its
name is mentioned elsewhere.  So a load misses no types but classes and such arrays. -/
theorem types_found (built : program.hierarchy = .ok hierarchy) :
    (∀ entry ∈ program.methods,
      (∀ declared ∈ entry.2.locals, (hierarchy.lookupType declared.type).isSome) ∧
      (∀ declared ∈ entry.2.catches, (hierarchy.lookupType declared.type).isSome) ∧
      ∀ statement ∈ entry.2.statements, ∀ type ∈ statement.2.type,
        (hierarchy.lookupType type).isSome ∧
        (statement.1 = .newArray →
          ((hierarchy.lookupType (arrayText type (max (statement.2.dims.getD 1) 1))).isSome ↔
            statement.2.dims ≠ some 0 ∨ program.Mentions (Text.trim (type ++ "[]"))))) ∧
    ∀ name, program.load = .error (.error (.unknownType name)) →
      hierarchy.lookupType name = none ∧
        ∃ entry ∈ program.methods, ∃ statement ∈ entry.2.statements,
          statement.2.className = some name ∨
            statement.1 = .newArray ∧ statement.2.dims = some 0 ∧
              ∃ type ∈ statement.2.type, name = type ++ "[]" := by
  have found : ∀ entry ∈ program.methods, ∀ text ∈ entry.2.bodyTexts,
      (hierarchy.lookupType text).isSome := fun entry member text isText =>
    lookupType_of_text built (mem_texts_of_body member isText)
  have ofLocal : ∀ {body : Method}, ∀ declared ∈ body.locals, declared.type ∈ body.bodyTexts :=
    fun declared listed => List.mem_append_left _ (List.mem_map_of_mem listed)
  have ofCatch : ∀ {body : Method}, ∀ declared ∈ body.catches, declared.type ∈ body.bodyTexts :=
    fun declared listed =>
      List.mem_append_right _ (List.mem_append_left _ (List.mem_map_of_mem listed))
  refine ⟨fun entry member => ⟨fun declared listed => found entry member _ (ofLocal _ listed),
    fun declared listed => found entry member _ (ofCatch _ listed),
    fun statement listed type isType => ⟨?_, fun isArray => ?_⟩⟩, fun name failed => ?_⟩
  · exact found entry member type
      (mem_bodyTexts_of_statement listed (mem_statementTexts_of_type isType))
  · rcases dims_cases statement.2.dims with ⟨isZero, same⟩ | ⟨notZero, same⟩
    · rw [same, arrayText_succ, arrayText_zero, lookupType_isSome_iff built]
      simp [isZero]
    · have isText : arrayText type (statement.2.dims.getD 1) ∈
          statementTexts statement.1 statement.2 :=
        arrayText_mem_statementTexts isType (by rw [if_pos isArray])
      rw [same]
      exact iff_of_true (found entry member _ (mem_bodyTexts_of_statement listed isText))
        (.inl notZero)
  · obtain ⟨asked, missing⟩ := asked_of_load built failed
    refine ⟨missing, ?_⟩
    obtain ⟨entry, member, asked⟩ := List.mem_flatMap.mp asked
    have unresolved : name ∉ entry.2.bodyTexts := fun isText => by
      simpa [missing] using found entry member name isText
    rcases List.mem_append.mp asked with isLocal | asked
    · obtain ⟨declared, listed, rfl⟩ := List.mem_map.mp isLocal
      exact absurd (ofLocal _ listed) unresolved
    rcases List.mem_append.mp asked with isCatch | asked
    · obtain ⟨declared, listed, rfl⟩ := List.mem_map.mp isCatch
      exact absurd (ofCatch _ listed) unresolved
    obtain ⟨statement, listed, asked⟩ := List.mem_flatMap.mp asked
    have notText : name ∉ statementTexts statement.1 statement.2 :=
      fun isText => unresolved (mem_bodyTexts_of_statement listed isText)
    exact ⟨entry, member, statement, listed, (askedNames_cases asked).resolve_left notText⟩

def allocating (dims : Option Nat) (rest : List Item) : Program :=
  ⟨"Main.main",
    [⟨"T", none, none, false, []⟩,
      ⟨"Main", none, none, false,
        [.method ⟨"main", none, true, false, false,
          .local ⟨"x", "Object", false⟩ ::
            .statement .newArray { target := some "x", type := some "T", dims := dims } :: rest⟩]⟩]⟩

def missingClass : Program :=
  allocating (some 2) [.statement .classInit { className := some "Gone" }]

theorem types_found_nested : ∃ hierarchy, missingClass.hierarchy = .ok hierarchy ∧
    (hierarchy.lookupType (arrayText "T" 2)).isSome ∧
    missingClass.load = .error (.error (.unknownType "Gone")) ∧
    hierarchy.lookupType "Gone" = none := by
  have isBuilt : missingClass.hierarchy.toOption.isSome = true := by decide +kernel
  obtain ⟨hierarchy, isHierarchy⟩ := Option.isSome_iff_exists.mp isBuilt
  have built := toOption_eq_some.mp isHierarchy
  have refused : missingClass.refusal? = some (.error (.unknownType "Gone")) := by decide +kernel
  have failed := load_of_refusal? refused
  obtain ⟨found, missing⟩ := types_found built
  refine ⟨hierarchy, built, ?_, failed, (missing "Gone" failed).1⟩
  have each : ∀ entry ∈ missingClass.methods, ∀ statement ∈ entry.2.statements,
      statement.1 = .newArray → statement.2.type = some "T" → statement.2.dims = some 2 →
        (hierarchy.lookupType (arrayText "T" 2)).isSome := by
    intro entry member statement listed isArray isType dims
    have isSome := ((found entry member).2.2 statement listed "T" isType).2 isArray
    rw [dims] at isSome
    exact isSome.mpr (.inl nofun)
  exact each _ List.mem_cons_self _ List.mem_cons_self rfl rfl rfl

theorem array_type_missing : ∃ hierarchy,
    (allocating (some 0) []).hierarchy = .ok hierarchy ∧
    hierarchy.lookupType (arrayText "T" (max ((some 0).getD 1) 1)) = none ∧
    (∀ entry ∈ (allocating (some 0) []).methods, ∀ statement ∈ entry.2.statements,
      statement.2.className = none) ∧
    (allocating (some 0) []).load = .error (.error (.unknownType "T[]")) := by
  have missing : (allocating (some 0) []).hierarchy.toOption.map (fun hierarchy =>
      hierarchy.lookupType (arrayText "T" (max ((some 0).getD 1) 1))) = some none := by
    decide +kernel
  have refused : (allocating (some 0) []).refusal? = some (.error (.unknownType "T[]")) := by
    decide +kernel
  obtain ⟨hierarchy, isHierarchy, isMissing⟩ := Option.map_eq_some_iff.mp missing
  exact ⟨hierarchy, toOption_eq_some.mp isHierarchy, isMissing, by decide,
    load_of_refusal? refused⟩

end Declaration

end ObjectFlow
