import Mathlib.Data.List.Forall2
import ObjectFlow.Program.Loader
import ObjectFlow.Proofs.Effect

/-!
# How loading is refused

A body may lack many things, but a method that is looked up under a name that
finds one is not unknown.  Sites go up within a body, so that no statement is
registered twice as long as each body is loaded under a method of its own.
-/

namespace ObjectFlow

open Effect

/-- A failure of a load in which no statement is registered twice and no name that finds a method is
unknown. -/
def Hierarchy.Refuses (hierarchy : Hierarchy) : Failure → Prop
  | .error (.duplicateStatement _ _ _) => False
  | .error (.unknownMethod name) => ∀ id, hierarchy.lookupMethod name ≠ .ok id
  | _ => True

namespace Hierarchy

variable {hierarchy : Hierarchy}

theorem lookupMethod_error {name : String} {cause : Error}
    (failed : hierarchy.lookupMethod name = .error cause) : cause = .unknownMethod name := by
  unfold lookupMethod at failed
  dsimp only at failed
  split at failed
  · cases failed
  · exact (Except.error.inj failed).symm

theorem lookupField_error {type : TypeId} {name : String} {failure : Failure}
    (failed : hierarchy.lookupField type name = .error failure) :
    failure = .outOfRange ∨ ∃ typeName, failure = .error (.unknownField typeName name) := by
  unfold lookupField at failed
  cases isType : hierarchy.typeName? type with
  | none =>
      rw [isType] at failed
      cases failed
      exact .inl rfl
  | some typeName =>
      rw [isType] at failed
      cases isFound : (hierarchy.lineage type).findSome? fun classInfo =>
          classInfo.fields.find? fun id => (hierarchy.field? id).any (·.name = name) with
      | none =>
          simp only [inRange, isFound, pure_bind] at failed
          cases failed
          exact .inr ⟨typeName, rfl⟩
      | some id =>
          simp only [inRange, isFound, pure_bind] at failed
          cases failed

private theorem refuses_of_lookupMethod (hierarchy : Hierarchy) {name : String} {cause : Error}
    (failed : hierarchy.lookupMethod name = .error cause) : hierarchy.Refuses (.error cause) := by
  obtain rfl := lookupMethod_error failed
  intro id found
  rw [failed] at found
  cases found

private theorem refuses_of_lookupField {other : Hierarchy} {type : TypeId} {name : String}
    {failure : Failure} (failed : other.lookupField type name = .error failure) :
    hierarchy.Refuses failure := by
  rcases lookupField_error failed with rfl | ⟨_, rfl⟩
  · trivial
  · trivial

end Hierarchy

def Loads {α : Type} (hierarchy : Hierarchy) (before : List Statement → Prop)
    (computation : Register α) (after : α → List Statement → Prop) : Prop :=
  ∀ registrar : Registrar, registrar.hierarchy = hierarchy → before registrar.statements →
    (∀ failure last, computation registrar = (.error failure, last) →
      hierarchy.Refuses failure) ∧
    ∀ value last, computation registrar = (.ok value, last) →
      last.hierarchy = hierarchy ∧ after value last.statements

variable {α β : Type} {hierarchy : Hierarchy} {computation : Register α}

namespace Loads

variable {before : List Statement → Prop} {after : α → List Statement → Prop}

theorem pure {value : α} (here : ∀ statements, before statements → after value statements) :
    Loads hierarchy before (pure value) after := by
  intro registrar same start
  refine ⟨fun _ _ failed => ?_, fun _ _ succeeded => ?_⟩
  · cases failed
  · cases succeeded
    exact ⟨same, here _ start⟩

theorem throw {failure : Failure} (refused : hierarchy.Refuses failure) :
    Loads hierarchy before (throw failure) after := by
  intro registrar same start
  refine ⟨fun _ _ failed => ?_, fun _ _ succeeded => ?_⟩
  · cases failed
    exact refused
  · cases succeeded

theorem set {later : Registrar} {after : PUnit → List Statement → Prop}
    (same : later.hierarchy = hierarchy) (here : after ⟨⟩ later.statements) :
    Loads hierarchy before (set later) after := by
  intro registrar _ _
  refine ⟨fun _ _ failed => ?_, fun _ _ succeeded => ?_⟩
  · cases failed
  · cases succeeded
    exact ⟨same, here⟩

theorem bind {next : α → Register β} {last : β → List Statement → Prop}
    (first : Loads hierarchy before computation after)
    (rest : ∀ value, Loads hierarchy (after value) (next value) last) :
    Loads hierarchy before (computation >>= next) last := by
  intro registrar same start
  obtain ⟨fails, succeeds⟩ := first registrar same start
  rw [run_bind]
  cases run : computation registrar with
  | mk outcome between =>
      cases outcome with
      | error failure =>
          refine ⟨fun _ _ failed => ?_, fun _ _ succeeded => ?_⟩
          · cases failed
            exact fails failure between run
          · cases succeeded
      | ok value =>
          obtain ⟨same, here⟩ := succeeds value between run
          exact rest value between same here

theorem bind_get {next : Registrar → Register α}
    (rest : ∀ registrar : Registrar, registrar.hierarchy = hierarchy →
      before registrar.statements → Loads hierarchy before (next registrar) after) :
    Loads hierarchy before (get >>= next) after :=
  fun registrar same start => rest registrar same start registrar same start

theorem bind_set {later : Registrar} {next : PUnit → Register α}
    (same : later.hierarchy = hierarchy)
    (rest : Loads hierarchy (· = later.statements) (next ⟨⟩) after) :
    Loads hierarchy before (MonadStateOf.set later >>= next) after := by
  have here : Loads hierarchy before (MonadStateOf.set later)
      fun _ statements => statements = later.statements := .set same rfl
  exact here.bind fun _ => rest

theorem bind_inRange {found : Option β} {next : β → Register α}
    (rest : ∀ value, found = some value → Loads hierarchy before (next value) after) :
    Loads hierarchy before (inRange found >>= next) after := by
  cases found with
  | none =>
      have failing : Loads hierarchy before
          (MonadExcept.throw Failure.outOfRange : Register β) fun _ _ => False := .throw trivial
      exact failing.bind fun _ _ _ impossible => impossible.elim
  | some value => exact rest value rfl

theorem mono {better : α → List Statement → Prop} (loads : Loads hierarchy before computation after)
    (implies : ∀ value later, after value later → better value later) :
    Loads hierarchy before computation better := by
  intro registrar same start
  obtain ⟨fails, succeeds⟩ := loads registrar same start
  refine ⟨fails, fun value last run => ?_⟩
  obtain ⟨same, here⟩ := succeeds value last run
  exact ⟨same, implies value last.statements here⟩

private theorem of_imp {weaker : List Statement → Prop}
    (loads : Loads hierarchy weaker computation after)
    (implies : ∀ statements, before statements → weaker statements) :
    Loads hierarchy before computation after :=
  fun registrar same start => loads registrar same (implies _ start)

end Loads

def Quiet {α : Type} (hierarchy : Hierarchy) (computation : Register α) (good : α → Prop) : Prop :=
  ∀ holds, Loads hierarchy holds computation fun value later => good value ∧ holds later

namespace Quiet

variable {good : α → Prop}

theorem pure {value : α} (here : good value) : Quiet hierarchy (pure value) good :=
  fun _ => .pure fun _ start => ⟨here, start⟩

theorem throw {failure : Failure} (refused : hierarchy.Refuses failure) :
    Quiet hierarchy (throw failure) good :=
  fun _ => .throw refused

theorem fail {cause : Error} (refused : hierarchy.Refuses (.error cause)) :
    Quiet hierarchy (fail cause) good :=
  throw refused

private theorem loads {before : List Statement → Prop} {after : α → List Statement → Prop}
    (quiet : Quiet hierarchy computation good)
    (implies : ∀ value later, good value → before later → after value later) :
    Loads hierarchy before computation after :=
  (quiet before).mono fun value later here => implies value later here.1 here.2

private theorem bind_loads {next : α → Register β} {before : List Statement → Prop}
    {after : β → List Statement → Prop} (first : Quiet hierarchy computation good)
    (rest : ∀ value, good value → Loads hierarchy before (next value) after) :
    Loads hierarchy before (computation >>= next) after :=
  (first before).bind fun value registrar same start =>
    rest value start.1 registrar same start.2

theorem bind {next : α → Register β} {good' : β → Prop} (first : Quiet hierarchy computation good)
    (rest : ∀ value, good value → Quiet hierarchy (next value) good') :
    Quiet hierarchy (computation >>= next) good' :=
  fun holds => first.bind_loads fun value here => rest value here holds

theorem andThen {next : α → Register β} {good' : β → Prop}
    (first : Quiet hierarchy computation fun _ => True)
    (rest : ∀ value, Quiet hierarchy (next value) good') :
    Quiet hierarchy (computation >>= next) good' :=
  first.bind fun value _ => rest value

theorem bind_get {next : Registrar → Register α}
    (rest : ∀ registrar : Registrar, registrar.hierarchy = hierarchy →
      Quiet hierarchy (next registrar) good) : Quiet hierarchy (get >>= next) good :=
  fun holds => .bind_get fun registrar same _ => rest registrar same holds

private theorem inRange (value : Option α) : Quiet hierarchy (inRange value) fun _ => True := by
  cases value with
  | none => exact throw trivial
  | some value => exact pure trivial

theorem bind_inRange {found : Option β} {next : β → Register α}
    (rest : ∀ value, found = some value → Quiet hierarchy (next value) good) :
    Quiet hierarchy (ObjectFlow.inRange found >>= next) good :=
  fun holds => .bind_inRange fun value isFound => rest value isFound holds

theorem forM {items : List β} {body : β → Register PUnit}
    (each : ∀ item, Quiet hierarchy (body item) fun _ => True) :
    Quiet hierarchy (items.forM body) fun _ => True := by
  induction items with
  | nil => exact pure trivial
  | cons item items ih => exact (each item).andThen fun _ => ih

theorem mapM {items : List β} {body : β → Register α}
    (each : ∀ item, Quiet hierarchy (body item) fun _ => True) :
    Quiet hierarchy (items.mapM body) fun _ => True := by
  induction items with
  | nil =>
      rw [List.mapM_nil]
      exact pure trivial
  | cons item items ih =>
      rw [List.mapM_cons]
      exact (each item).andThen fun _ => ih.andThen fun _ => pure trivial

theorem option_mapM {item : Option β} {body : β → Register α}
    (each : ∀ item, Quiet hierarchy (body item) fun _ => True) :
    Quiet hierarchy (item.mapM body) fun _ => True := by
  cases item with
  | none => exact pure trivial
  | some item => exact (each item).andThen fun _ => pure trivial

end Quiet

/-! ## The registrar -/

namespace Registrar

private theorem onVariables_quiet (change : VariableTable → α × VariableTable) :
    Quiet hierarchy (onVariables change) fun _ => True := by
  refine fun holds => .bind_get fun registrar same start => .bind_set same (.pure ?_)
  rintro _ rfl
  exact ⟨trivial, start⟩

private theorem onPoints_quiet (change : PointGraph → α × PointGraph) :
    Quiet hierarchy (onPoints change) fun _ => True := by
  refine fun holds => .bind_get fun registrar same start => .bind_set same (.pure ?_)
  rintro _ rfl
  exact ⟨trivial, start⟩

private theorem addSuccessor_quiet (source target : PointId) :
    Quiet hierarchy (addSuccessor source target) fun _ => True := by
  refine fun holds => .bind_get fun registrar same start => .bind_inRange fun points _ => ?_
  exact .set same ⟨trivial, start⟩

private theorem summary_quiet (method : MethodId) :
    Quiet hierarchy (summary method) fun _ => True := by
  refine fun holds => .bind_get fun registrar same start => ?_
  split
  · exact .pure fun _ here => ⟨trivial, here⟩
  · refine .bind_inRange fun made _ => .bind_set same (.pure ?_)
    rintro _ rfl
    exact ⟨trivial, start⟩

private theorem setEntry_quiet (method : MethodId) :
    Quiet hierarchy (setEntry method) fun _ => True := by
  intro holds registrar same start
  refine ⟨fun _ _ failed => ?_, fun _ _ succeeded => ?_⟩
  · cases failed
  · cases succeeded
    exact ⟨same, trivial, start⟩

private theorem addInitializer_quiet (method : MethodId) :
    Quiet hierarchy (addInitializer method) fun _ => True := by
  intro holds registrar same start
  refine ⟨fun _ _ failed => ?_, fun _ _ succeeded => ?_⟩
  · cases failed
  · cases succeeded
    dsimp only
    split
    · exact ⟨same, trivial, start⟩
    · exact ⟨same, trivial, start⟩

private theorem finish_quiet :
    Quiet hierarchy finish fun program => program.hierarchy = hierarchy := by
  refine .bind_get fun registrar _ => ?_
  split
  · exact .fail trivial
  · refine .bind_get fun registrar _ => ?_
    refine (Quiet.forM fun method => (summary_quiet method).andThen fun _ => .pure trivial).andThen
      fun _ => ?_
    exact .bind_get fun _ same => .pure same

private theorem register_loads {statement : Statement} {first second : Statement → Prop}
    (here : second statement) (others : ∀ other, first other → second other)
    (free : ∀ other, first other →
      ¬(other.method = statement.method ∧ other.site = statement.site)) :
    Loads hierarchy (fun statements => ∀ other ∈ statements, first other) (register statement)
      fun _ statements => ∀ other ∈ statements, second other := by
  refine .bind_get fun registrar same start => ?_
  split
  · next taken =>
      obtain ⟨other, member, isThere⟩ := List.any_eq_true.mp taken
      exact absurd (by simpa using isThere) (free other (start other member))
  · refine .bind_set same (.pure ?_)
    rintro _ rfl other member
    rcases List.mem_append.mp member with earlier | new
    · exact others other (start other earlier)
    · exact List.mem_singleton.mp new ▸ here

end Registrar

/-! ## Bodies -/

namespace Declaration

open Registrar

variable {scope : Scope}

private theorem lookupType_quiet (name : String) :
    Quiet hierarchy (lookupType name) fun _ => True := by
  refine .bind_get fun registrar _ => ?_
  split
  · exact .pure trivial
  · exact .fail trivial

theorem lookup_quiet (name : String) : Quiet hierarchy (scope.lookup name) fun _ => True := by
  unfold Scope.lookup
  split
  · exact .pure trivial
  · exact .fail trivial

private theorem require_quiet (value : Option String) (element : Element) (property : String) :
    Quiet hierarchy (require value element property) fun _ => True := by
  unfold require
  split
  · exact .pure trivial
  · exact .fail trivial

private theorem required_quiet (value : Option String) (element : Element) (property : String) :
    Quiet hierarchy (scope.required value element property) fun _ => True :=
  (require_quiet value element property).andThen fun name => lookup_quiet name

private theorem declareLocal_quiet (method : MethodId) (declared : Local) :
    Quiet hierarchy (declareLocal method declared) fun _ => True := by
  refine (lookupType_quiet _).andThen fun type => .bind_get fun registrar _ => ?_
  refine .bind_inRange fun isReference _ => ?_
  split
  · exact (onVariables_quiet _).andThen fun _ => .pure trivial
  · exact .pure trivial

private theorem openScope_quiet (id : MethodId) (body : Method) :
    Quiet hierarchy (openScope id body) fun scope => scope.method = id := by
  refine .bind_get fun registrar _ => (summary_quiet id).andThen fun summary => ?_
  refine .bind_inRange fun methodName _ => .bind_inRange fun method _ => ?_
  refine (Quiet.mapM fun declared => declareLocal_quiet id declared).andThen fun locals => ?_
  refine (Quiet.mapM fun declared => ?_).andThen fun handlers => .pure rfl
  exact (lookupType_quiet _).andThen fun _ => (lookup_quiet _).andThen fun _ => .pure trivial

private theorem labelPoint_quiet (points : List (PointId × Operands)) (label : String) :
    Quiet hierarchy (labelPoint scope points label) fun _ => True := by
  unfold labelPoint
  split
  · exact .pure trivial
  · exact .fail trivial

private theorem targets_quiet (points : List (PointId × Operands)) (exit next : PointId)
    (element : Element) (operands : Operands) :
    Quiet hierarchy (targets scope points exit next element operands) fun _ => True := by
  unfold targets
  split
  · exact .pure trivial
  · exact .pure trivial
  · exact (labelPoint_quiet _ _).andThen fun _ => .pure trivial
  · exact (labelPoint_quiet _ _).andThen fun _ => .pure trivial
  · exact .pure trivial

private theorem controlFlow_quiet (statements : List (Element × Operands)) (sites : List Nat) :
    Quiet hierarchy (controlFlow scope statements sites) fun _ => True := by
  refine (onPoints_quiet _).andThen fun ends => ?_
  refine (Quiet.mapM fun site => onPoints_quiet _).andThen fun points => ?_
  refine (Quiet.mapM fun entry => ?_).andThen fun edges => ?_
  · exact (targets_quiet _ _ _ _ _).andThen fun _ => .pure trivial
  · exact (Quiet.forM fun edge => addSuccessor_quiet _ _).andThen fun _ => .pure trivial

private theorem lookupField_quiet (type : TypeId) (name : String) :
    Quiet hierarchy (lookupField type name) fun _ => True := by
  refine .bind_get fun registrar _ => ?_
  split
  · exact .pure trivial
  · next failure failed => exact .throw (Hierarchy.refuses_of_lookupField failed)

private theorem fieldOf_quiet (element : Element) (operands : Operands) (base : Option Variable) :
    Quiet hierarchy (fieldOf element operands base) fun _ => True := by
  refine (require_quiet _ _ _).andThen fun name => ?_
  have found : ∀ type, Quiet hierarchy (lookupField type name) fun _ => True :=
    fun type => lookupField_quiet type name
  dsimp only
  split
  · exact (lookupType_quiet _).andThen found
  · exact Quiet.andThen (.pure trivial) found
  · exact Quiet.andThen (.fail trivial) found

private theorem lookupMethod_quiet (name : String) :
    Quiet hierarchy (lookupMethod name) fun id => hierarchy.lookupMethod name = .ok id := by
  refine .bind_get fun registrar same => ?_
  rw [same]
  split
  · next id found => exact .pure found
  · next cause failed => exact .fail (hierarchy.refuses_of_lookupMethod failed)

private theorem initializersOf_quiet (type : TypeId) :
    Quiet hierarchy (initializersOf type) fun _ => True :=
  .bind_get fun _ _ => .inRange _

private theorem callKind_quiet (kind : Option String) :
    Quiet hierarchy (callKind kind) fun _ => True := by
  unfold callKind
  split
  · exact .pure trivial
  · exact .pure trivial
  · exact .pure trivial
  · exact .pure trivial
  · exact .pure trivial
  · exact .fail trivial

private theorem arguments_quiet (types : List TypeId) (names : List String) :
    Quiet hierarchy (arguments scope types names) fun _ => True := by
  induction types generalizing names with
  | nil => exact .pure trivial
  | cons type types ih =>
      cases names with
      | nil => exact (ih []).andThen fun _ => .pure trivial
      | cons name names =>
          refine .bind_get fun registrar _ => .bind_inRange fun isReference _ => ?_
          dsimp only
          split
          · refine (lookup_quiet name).andThen fun passed => ?_
            exact (ih names).andThen fun _ => .pure trivial
          · exact (ih names).andThen fun _ => .pure trivial

private theorem callOf_quiet (operands : Operands) (site : Nat) :
    Quiet hierarchy (callOf scope operands site) fun _ => True := by
  refine (require_quiet _ _ _).andThen fun name => (lookupMethod_quiet name).bind fun callee _ => ?_
  refine (callKind_quiet _).andThen fun kind => ?_
  have rest : ∀ receiver, Quiet hierarchy (do
      let declared ← ObjectFlow.inRange ((← get).hierarchy.method? callee)
      let args ← arguments scope declared.params (Text.splitList operands.args)
      let result ← operands.target.mapM scope.lookup
      let exception ← onVariables
        (·.make (.callException scope.method site) TypeTable.throwableType false)
      pure (⟨kind, callee, receiver, args, result, exception⟩ : Call)) fun _ => True := by
    intro receiver
    refine .bind_get fun registrar _ => .bind_inRange fun method _ => ?_
    refine (arguments_quiet _ _).andThen fun args => ?_
    refine (Quiet.option_mapM fun name => lookup_quiet name).andThen fun result => ?_
    exact (onVariables_quiet _).andThen fun _ => .pure trivial
  dsimp only
  split
  · exact rest none
  · exact (required_quiet _ _ _).andThen fun receiver => rest (some receiver)

private theorem staticField_quiet (element : Element) (operands : Operands) :
    Quiet hierarchy (actionOf.staticField element operands) fun _ => True := by
  refine (fieldOf_quiet _ _ _).andThen fun id => .bind_get fun registrar _ => ?_
  refine .bind_inRange fun field _ => (onVariables_quiet _).andThen fun made => ?_
  exact (initializersOf_quiet _).andThen fun _ => .pure trivial

private theorem actionOf_quiet (element : Element) (operands : Operands) (site : Nat) :
    Quiet hierarchy (actionOf scope element operands site) fun action =>
      ∀ made, action = some (.call made) → element = .call := by
  unfold actionOf
  have needed : ∀ value element property,
      Quiet hierarchy (scope.required value element property) fun _ => True := required_quiet
  have noCall : ∀ {made : Action}, (∀ call, made ≠ .call call) →
      Quiet hierarchy (pure (some made)) fun action =>
        ∀ call, action = some (.call call) → element = .call :=
    fun other => .pure fun call same => absurd (Option.some.inj same) (other call)
  cases element with
  | new =>
      refine (needed _ _ _).andThen fun target => (require_quiet _ _ _).andThen fun name => ?_
      exact (lookupType_quiet _).andThen fun _ => noCall fun _ same => by cases same
  | newArray =>
      refine (needed _ _ _).andThen fun target => (require_quiet _ _ _).andThen fun name => ?_
      exact (lookupType_quiet _).andThen fun _ => noCall fun _ same => by cases same
  | copy =>
      refine (Quiet.option_mapM fun name => lookupType_quiet name).andThen fun cast => ?_
      exact (needed _ _ _).andThen fun _ => (needed _ _ _).andThen fun _ =>
        noCall fun _ same => by cases same
  | phi =>
      refine (Quiet.mapM fun name => lookup_quiet name).andThen fun sources => ?_
      exact (needed _ _ _).andThen fun _ => noCall fun _ same => by cases same
  | load =>
      refine (needed _ _ _).andThen fun base => (fieldOf_quiet _ _ _).andThen fun field => ?_
      exact (needed _ _ _).andThen fun _ => noCall fun _ same => by cases same
  | arrayLoad =>
      exact (needed _ _ _).andThen fun _ => (needed _ _ _).andThen fun _ =>
        noCall fun _ same => by cases same
  | store =>
      refine (needed _ _ _).andThen fun base => (fieldOf_quiet _ _ _).andThen fun field => ?_
      exact (needed _ _ _).andThen fun _ => noCall fun _ same => by cases same
  | arrayStore =>
      exact (needed _ _ _).andThen fun _ => (needed _ _ _).andThen fun _ =>
        noCall fun _ same => by cases same
  | getStatic =>
      exact (needed _ _ _).andThen fun _ => (staticField_quiet _ _).andThen fun _ =>
        noCall fun _ same => by cases same
  | putStatic =>
      exact (needed _ _ _).andThen fun _ => (staticField_quiet _ _).andThen fun _ =>
        noCall fun _ same => by cases same
  | call => exact (callOf_quiet _ _).andThen fun _ => .pure fun _ _ => rfl
  | «return» =>
      dsimp only
      split
      · exact (lookup_quiet _).andThen fun _ => noCall fun _ same => by cases same
      · exact .pure fun _ same => by cases same
  | throw => exact (needed _ _ _).andThen fun _ => noCall fun _ same => by cases same
  | classInit =>
      refine (require_quiet _ _ _).andThen fun name => (lookupType_quiet _).andThen fun type => ?_
      exact (initializersOf_quiet _).andThen fun _ => noCall fun _ same => by cases same

/-! ## Sites -/

def Earlier (done : List MethodId) (id : MethodId) (site : Nat) (statement : Statement) : Prop :=
  statement.method ∈ done ∨ statement.method = id ∧ statement.site < site

variable {done : List MethodId}

theorem Earlier.mono {id : MethodId} {site later : Nat} {statement : Statement}
    (earlier : Earlier done id site statement) (le : site ≤ later) :
    Earlier done id later statement :=
  earlier.imp_right fun here => ⟨here.1, Nat.lt_of_lt_of_le here.2 le⟩

private theorem registerNext_loads {id : MethodId} (fresh : id ∉ done) (site : Nat)
    (point : Option PointId) (action : Action) :
    Loads hierarchy (fun statements => ∀ other ∈ statements, Earlier done id site other)
      (register ⟨id, site, point, action⟩)
      fun _ statements => ∀ other ∈ statements, Earlier done id (site + 1) other := by
  refine register_loads (.inr ⟨rfl, Nat.lt_succ_self site⟩)
    (fun other earlier => earlier.mono (Nat.le_succ site)) ?_
  rintro other (isDone | ⟨_, before⟩) ⟨sameMethod, sameSite⟩
  · rw [show other.method = id from sameMethod] at isDone
    exact fresh isDone
  · exact Nat.ne_of_lt before sameSite

private theorem registerElement_loads (fresh : scope.method ∉ done) (element : Element)
    (operands : Operands) (site : Nat) (point : PointId) :
    Loads hierarchy (fun statements => ∀ other ∈ statements, Earlier done scope.method site other)
      (registerElement scope element operands site point)
      fun _ statements => ∀ other ∈ statements,
        Earlier done scope.method (site + if element = .call then 2 else 1) other := by
  refine (actionOf_quiet element operands site).bind_loads fun action onlyCall => ?_
  have grow : ∀ statements : List Statement, ∀ width, width ≤ (if element = .call then 2 else 1) →
      (∀ other ∈ statements, Earlier done scope.method (site + width) other) →
      ∀ other ∈ statements,
        Earlier done scope.method (site + if element = .call then 2 else 1) other :=
    fun statements width le all other member =>
      (all other member).mono (Nat.add_le_add_left le site)
  cases action with
  | none => exact .pure fun statements all => grow statements 0 (Nat.zero_le _) all
  | some action =>
      refine (registerNext_loads fresh site (some point) action).bind fun _ => ?_
      cases action with
      | call made =>
          rw [if_pos (onlyCall made rfl)]
          refine (registerNext_loads fresh (site + 1) none _).bind fun _ => ?_
          exact .pure fun _ all => all
      | _ => exact .pure fun statements all => grow statements 1 (by split <;> decide) all

private theorem registerAll_loads (fresh : scope.method ∉ done)
    (statements : List (Element × Operands)) (next : Nat) (points : List PointId) :
    Loads hierarchy (fun statements => ∀ other ∈ statements, Earlier done scope.method next other)
      (((statements.zip (sitesFrom next statements)).zip points).forM fun entry =>
        registerElement scope entry.1.1.1 entry.1.1.2 entry.1.2 entry.2)
      fun _ statements => ∀ other ∈ statements, other.method ∈ done ++ [scope.method] := by
  have ended : ∀ site, Loads hierarchy
      (fun statements => ∀ other ∈ statements, Earlier done scope.method site other)
      (pure ⟨⟩ : Register PUnit)
      fun _ statements => ∀ other ∈ statements, other.method ∈ done ++ [scope.method] := by
    refine fun site => .pure fun statements all other member => List.mem_append.mpr ?_
    exact (all other member).imp_right fun here => List.mem_singleton.mpr here.1
  induction statements generalizing next points with
  | nil => exact ended next
  | cons entry statements ih =>
      cases points with
      | nil => exact ended next
      | cons point points =>
          rw [sitesFrom, List.zip_cons_cons, List.zip_cons_cons]
          exact (registerElement_loads fresh _ _ _ _).bind fun _ => ih _ points

private theorem loadMethod_loads {className : String} {body : Method} {id : MethodId}
    (found : hierarchy.lookupMethod s!"{className}.{body.name}" = .ok id) (fresh : id ∉ done) :
    Loads hierarchy (fun statements => ∀ other ∈ statements, other.method ∈ done)
      (loadMethod className body)
      fun _ statements => ∀ other ∈ statements, other.method ∈ done ++ [id] := by
  refine (lookupMethod_quiet _).bind_loads fun other isOther => ?_
  obtain rfl : other = id := Except.ok.inj (isOther.symm.trans found)
  refine (openScope_quiet other body).bind_loads fun scope isScope => ?_
  subst isScope
  refine (controlFlow_quiet _ _).bind_loads fun points _ => ?_
  exact (registerAll_loads fresh _ 0 points).of_imp fun statements all other member =>
    .inl (all other member)

private theorem loadMethods_loads {entries : List (Class × Method)} {ids : List MethodId}
    (bound : List.Forall₂ (fun entry id =>
      hierarchy.lookupMethod s!"{entry.1.name}.{entry.2.name}" = .ok id) entries ids)
    (distinct : (done ++ ids).Nodup) :
    Loads hierarchy (fun statements => ∀ other ∈ statements, other.method ∈ done)
      (entries.forM fun entry => loadMethod entry.1.name entry.2)
      fun _ statements => ∀ other ∈ statements, other.method ∈ done ++ ids := by
  induction bound generalizing done with
  | nil => exact .pure fun statements all => by simpa using all
  | @cons entry id entries ids found _ ih =>
      have fresh : id ∉ done := fun member =>
        (List.nodup_append.mp distinct).2.2 id member id List.mem_cons_self rfl
      have distinct' : ((done ++ [id]) ++ ids).Nodup := by simpa using distinct
      refine (loadMethod_loads found fresh).bind fun _ => (ih distinct').mono ?_
      intro _ statements all other member
      simpa using all other member

def Program.methods (program : Program) : List (Class × Method) :=
  program.classes.flatMap fun owner => owner.methods.map fun method => (owner, method)

theorem forM_methods (program : Program) (body : Class → Method → Register PUnit) :
    (program.classes.forM fun owner => owner.methods.forM (body owner)) =
      program.methods.forM fun entry => body entry.1 entry.2 := by
  unfold Program.methods
  induction program.classes with
  | nil => rfl
  | cons owner owners ih =>
      simp only [List.forM_eq_forM] at ih ⊢
      rw [List.flatMap_cons, List.forM_append, List.forM_map, List.forM_cons, ih]

private theorem loadInto_loads {program : Program} {ids : List MethodId}
    (bound : List.Forall₂ (fun entry id =>
      hierarchy.lookupMethod s!"{entry.1.name}.{entry.2.name}" = .ok id) program.methods ids)
    (distinct : ids.Nodup) :
    Loads hierarchy (fun statements => ∀ other ∈ statements, other.method ∈ []) program.loadInto
      fun loaded _ => loaded.hierarchy = hierarchy := by
  unfold Program.loadInto
  rw [forM_methods]
  refine (loadMethods_loads bound (by simpa using distinct)).bind fun _ => ?_
  refine Quiet.loads (.bind_get fun registrar _ => ?_) fun _ _ here _ => here
  dsimp only
  split
  · exact .fail trivial
  · refine (setEntry_quiet _).andThen fun _ => .bind_inRange fun method _ => ?_
    refine (initializersOf_quiet _).andThen fun initializers => ?_
    exact (Quiet.forM addInitializer_quiet).andThen fun _ => finish_quiet

/-- A load of bodies that are found under ids of their own has no statement twice, and no method
is unknown that can be looked up. -/
theorem load_cases {program : Program} (built : program.hierarchy = .ok hierarchy)
    {ids : List MethodId} (bound : List.Forall₂ (fun entry id =>
      hierarchy.lookupMethod s!"{entry.1.name}.{entry.2.name}" = .ok id) program.methods ids)
    (distinct : ids.Nodup) :
    (∀ failure, program.load = .error failure → hierarchy.Refuses failure) ∧
      ∀ loaded, program.load = .ok loaded → loaded.hierarchy = hierarchy := by
  have run : program.load = (program.loadInto (Registrar.empty hierarchy)).1 := by
    unfold Program.load
    rw [built]
    rfl
  obtain ⟨fails, succeeds⟩ :=
    loadInto_loads bound distinct (.empty hierarchy) rfl (by simp [Registrar.empty])
  rw [run]
  exact ⟨fun failure failed => fails failure _ (Prod.ext failed rfl),
    fun loaded succeeded => (succeeds loaded _ (Prod.ext succeeded rfl)).2⟩

end Declaration

end ObjectFlow
