import ObjectFlow.Evaluation.Statement
import ObjectFlow.Proofs.Graph.Fact

/-!
# What statements demand

A statement in a context is a constraint on points-to graphs: from the facts
that are known it demands others.  `Frame.demand` writes this constraint down
for every action, in terms of objects and places and without an order of
evaluation.  Where an evaluation could not go on, the demand is for `failure`.

Demands are put together from a few pieces.  What a reader sees of the known
facts enters only through `Demand.reading`, which also demands that the reader
watches the nodes it looks at.  That is why growth of nodes that nobody
watches cannot make a demand grow (`Demand.Local`), and why the demand of a
union splits into demands of the parts (`Demand.Linear`).
-/

namespace ObjectFlow

theorem TypeFilter.accepts?_any (hierarchy : Hierarchy) (bound type : TypeId) :
    (⟨bound, []⟩ : TypeFilter).accepts? hierarchy type = hierarchy.isSubtype? type bound := by
  unfold accepts? avoids?
  cases hierarchy.isSubtype? type bound with
  | none => rfl
  | some answer => cases answer <;> rfl

theorem ControlFlow.writes_of_reachingKills {flow : ControlFlow} {id : VariableId}
    {moment : Moment} {kill : PointId} (reaches : kill ∈ flow.reachingKills id moment) :
    flow.writes id kill = true := by
  have searched : ∀ {point}, kill ∈ reachingKills.search flow id point →
      flow.writes id kill = true := fun met => (OrderedSet.mem_filter.mp met).2
  cases moment with
  | before point => exact searched reaches
  | after point =>
      simp only [reachingKills] at reaches
      split at reaches
      · next writes =>
          rw [OrderedSet.mem_singleton.mp reaches]
          exact writes
      · exact searched reaches

/-- A node that is read, and what becomes of its objects on the way to the reader. -/
structure Source where
  place : Place
  becomes : HeapObject → Option (List HeapObject)

def Source.direct (place : Place) : Source := ⟨place, fun object => some [object]⟩

/-- The facts that are demanded when some facts are known. -/
abbrev Demand := Set Fact → Set Fact

/-- The objects that a reader of some sources sees. -/
def shown (sources : List Source) (known : Set Fact) : Set HeapObject :=
  {object | ∃ source ∈ sources, ∃ held, .edge source.place held ∈ known ∧
    ∃ seen, source.becomes held = some seen ∧ object ∈ seen}

theorem shown_direct {place : Place} {known : Set Fact} :
    shown [.direct place] known = {object | .edge place object ∈ known} := by
  ext object
  simp only [shown, List.mem_singleton, Source.direct, Set.mem_ofPred_eq]
  constructor
  · rintro ⟨_, rfl, held, edge, seen, same, member⟩
    obtain rfl := Option.some.inj same
    obtain rfl := List.mem_singleton.mp member
    exact edge
  · intro edge
    exact ⟨_, rfl, object, edge, _, rfl, List.mem_singleton_self _⟩

inductive Looks (sources : List Source) (known : Set Fact) : Fact → Prop where
  | node {source : Source} : source ∈ sources → Looks sources known (.node source.place)
  | watch {source : Source} : source ∈ sources → Looks sources known (.watch source.place)
  | object {object : HeapObject} : object ∈ shown sources known →
      Looks sources known (.object object)
  | failure {source : Source} {held : HeapObject} : source ∈ sources →
      .edge source.place held ∈ known → source.becomes held = none → Looks sources known .failure

namespace Demand

variable {α : Type}

def fixed (facts : Set Fact) : Demand := fun _ => facts

def nothing : Demand := fixed ∅

def both (first second : Demand) : Demand := fun known => first known ∪ second known

def orFail (value : Option α) (body : α → Demand) : Demand :=
  match value with
  | some value => body value
  | none => fixed {.failure}

def provided (answer : Option Bool) (body : Demand) : Demand :=
  orFail answer fun holds => if holds then body else nothing

def each (items : List α) (body : α → Demand) : Demand :=
  fun known => {fact | ∃ item ∈ items, fact ∈ body item known}

def looks (sources : List Source) : Demand := fun known => {fact | Looks sources known fact}

def reading (sources : List Source) (body : HeapObject → Demand) : Demand :=
  fun known => {fact | ∃ object ∈ shown sources known, fact ∈ body object known} ∪
    looks sources known

end Demand

open Demand

section Met

variable {α : Type} {value : Option α} {body : α → Demand} {known bound : Set Fact}

theorem orFail_closed (closed : orFail value body known ⊆ bound) :
    (value = none ∧ .failure ∈ bound) ∨ ∃ found, value = some found ∧ body found known ⊆ bound := by
  cases value with
  | none => exact .inl ⟨rfl, closed rfl⟩
  | some found => exact .inr ⟨found, rfl, closed⟩

theorem orFail_met (safe : .failure ∉ bound) (met : orFail value body known ⊆ bound) :
    ∃ found, value = some found ∧ body found known ⊆ bound :=
  (orFail_closed met).resolve_left fun absent => safe absent.2

theorem both_closed {first second : Demand} (closed : both first second known ⊆ bound) :
    first known ⊆ bound ∧ second known ⊆ bound :=
  Set.union_subset_iff.mp closed

end Met

namespace Frame

variable (frame : Frame)

/-! ## Places and objects -/

def written? (declared : Variable) (point : Option PointId) : Option Place :=
  if declared.flowSensitive then
    point.bind fun point =>
      if frame.program.flow.writes declared.id point then
        some (.localAt (frame.replica declared) point)
      else
        none
  else
    some (.local (frame.replica declared))

theorem written?_cases {frame : Frame} {declared : Variable} {point : Option PointId}
    {place : Place} (found : frame.written? declared point = some place) :
    place = .local (frame.replica declared) ∨
      ∃ kill, frame.program.flow.writes declared.id kill = true ∧
        place = .localAt (frame.replica declared) kill := by
  unfold written? at found
  split at found
  · obtain ⟨kill, _, found⟩ := Option.bind_eq_some_iff.mp found
    split at found
    · next writes => exact .inr ⟨kill, writes, (Option.some.inj found).symm⟩
    · cases found
  · exact .inl (Option.some.inj found).symm

def aged? (write : ObservedWrite) (object : HeapObject) : Option (List HeapObject) :=
  (frame.program.flow.point? write.kill).map fun writer =>
    match frame.abstraction.summaryOf object with
    | none => [object]
    | some summary =>
        if object.site.method = writer.method ∧ object.recency = .mostRecent ∧
            frame.abstraction.policy.record 0 object.site frame.context = object then
          match frame.program.flow.pointOf? writer.method object.site.site with
          | none => [object]
          | some allocation =>
              match frame.program.flow.ageing write allocation with
              | .fresh => [object]
              | .aged => [summary]
              | .either => [object, summary]
        else
          [object]

theorem aged?_of_undivided {frame : Frame} {object : HeapObject}
    (undivided : frame.abstraction.summaryOf object = none) (write : ObservedWrite) :
    frame.aged? write object = (frame.program.flow.point? write.kill).map fun _ => [object] := by
  unfold aged?
  rw [undivided]

def sources? (declared : Variable) (point : Option PointId) : Option (List Source) :=
  if declared.flowSensitive then
    point.map fun point =>
      (frame.program.flow.reachingKills declared.id (.before point)).toList.map fun kill =>
        ⟨.localAt (frame.replica declared) kill, frame.aged? ⟨declared.id, kill, .before point⟩⟩
  else
    some [.direct (.local (frame.replica declared))]

def recorded? (site : AllocationSite) : Option HeapObject :=
  (frame.program.describeStatement? frame.statement).map fun _ =>
    frame.abstraction.policy.record 0 site frame.context

def slotType? (object : HeapObject) (key : FieldKey) : Option TypeId :=
  match key with
  | .named field => (frame.hierarchy.field? field).map Field.type
  | .arrayContents =>
      (frame.hierarchy.elementType? object.type).map (·.getD TypeTable.objectType)

def slot? (object : HeapObject) (key : FieldKey) : Option Place :=
  (frame.slotType? object key).map (.field object key)

def hasSlot? (object : HeapObject) (key : FieldKey) : Option Bool :=
  match key with
  | .arrayContents => frame.hierarchy.isArray? object.type
  | .named field =>
      (frame.hierarchy.field? field).bind fun field =>
        frame.hierarchy.isSubtype? object.type field.declaring

def slots? (object : HeapObject) : Option (List FieldKey) :=
  (frame.hierarchy.kind? object.type).bind fun
    | .array element =>
        (frame.hierarchy.isReference? element).map fun holds =>
          if holds then [.arrayContents] else []
    | _ => (frame.hierarchy.instanceFields? object.type).bind (referenceKeys? frame.hierarchy)

/-! ## Pieces of statements -/

/-- Look at what a variable holds before a point, and demand something of each object. -/
def observing (declared : Variable) (point : Option PointId) (body : HeapObject → Demand) :
    Demand :=
  orFail (frame.sources? declared point) fun sources => reading sources body

def moving (place : Place) (filter : Option TypeFilter) (object : HeapObject) : Demand :=
  provided (filter.elim (some true) (·.accepts? frame.hierarchy object.type))
    (fixed {.edge place object})

def assigning (source : Variable) (point : Option PointId) (target : Variable)
    (targetPoint : Option PointId) (filter : Option TypeFilter) : Demand :=
  both (frame.observing source point fun _ => nothing) <|
    orFail (frame.written? target targetPoint) fun place =>
      both (fixed {.node place}) (frame.observing source point (frame.moving place filter))

def returning (place : Place) (target : Variable) (point : Option PointId) : Demand :=
  both (looks [.direct place]) <|
    orFail (frame.written? target point) fun goal =>
      both (fixed {.node goal}) (reading [.direct place] fun object => fixed {.edge goal object})

def allocating (site : AllocationSite) (body : HeapObject → Demand) : Demand :=
  orFail (frame.recorded? site) fun object => both (fixed {.object object}) (body object)

def placing (target : Variable) (point : Option PointId) (object : HeapObject) (rest : Demand) :
    Demand :=
  orFail (frame.written? target point) fun place =>
    both (fixed {.node place, .edge place object}) rest

def triggering (methods : List MethodId) : Demand :=
  fixed {fact | ∃ method ∈ methods, fact = .initializer method}

def copying (source target : HeapObject) : Demand :=
  orFail (frame.slots? source) fun keys => each keys fun key =>
    orFail (frame.slot? source key) fun here => both (fixed {.node here}) <|
      orFail (frame.slot? target key) fun there => both (fixed {.node there})
        (reading [.direct here] fun object => fixed {.edge there object})

def folding (recent : HeapObject) : Demand :=
  match frame.abstraction.summaryOf recent with
  | none => nothing
  | some summary => both (fixed {.object summary}) (frame.copying recent summary)

def nesting (statement : Statement) :
    (remaining : Nat) → (dimension : Nat) → (outer : HeapObject) → TypeId → Demand
  | 0, _, _, _ => nothing
  | remaining + 1, dimension, outer, type =>
      orFail (frame.hierarchy.elementType? type) fun
        | none => nothing
        | some innerType =>
            provided (frame.hierarchy.isArray? innerType) <|
              frame.allocating
                ⟨statement.method, statement.site, innerType, .dimension dimension⟩ fun inner =>
                orFail (frame.slot? outer .arrayContents) fun contents =>
                  both (fixed {.node contents, .edge contents inner}) <|
                    both (frame.folding inner)
                      (nesting statement remaining (dimension + 1) inner innerType)

/-! ## Calls -/

def calleeContext (statement : Statement) (receiver : Option HeapObject) : Context :=
  frame.abstraction.policy.merge 0 ⟨statement.method, statement.site⟩ receiver frame.context

def calleePlace (context : Context) (declared : Variable) : Place :=
  .local (declared.replica context frame.abstraction.initialContext)

def passing (point : Option PointId) (context : Context) :
    List (Option Variable) → List (Option Variable) → Demand
  | some arg :: args, some formal :: formals =>
      both (frame.observing arg point fun object =>
          fixed {.edge (frame.calleePlace context formal) object}) <|
        both (fixed {.node (frame.calleePlace context formal)})
          (passing point context args formals)
  | _ :: args, _ :: formals => passing point context args formals
  | _, _ => nothing

def receiving (context : Context) (formals : List (Option Variable))
    (receiver : Option HeapObject) : Demand :=
  match formals.head?, receiver with
  | some (some this), some object =>
      fixed {.node (frame.calleePlace context this), .edge (frame.calleePlace context this) object}
  | _, _ => nothing

def yielding (point : Option PointId) (context : Context) :
    (result returned : Option Variable) → Demand
  | some result, some returned => frame.returning (frame.calleePlace context returned) result point
  | _, _ => nothing

/-- What goes on between a call and a callee, the receiver apart. -/
def exchanging (statement : Statement) (call : Call) (summary : MethodSummary) (context : Context)
    (formals : List (Option Variable)) : Demand :=
  both (frame.passing statement.point context call.args formals) <|
    both (frame.yielding statement.point context call.result summary.result)
      (frame.returning (frame.calleePlace context summary.exception) call.exception none)

def linkingMethod (statement : Statement) (call : Call) (callee : MethodId)
    (receiver : Option HeapObject) : Demand :=
  orFail (frame.program.describeStatement? frame.statement) fun _ =>
    let context := frame.calleeContext statement receiver
    both (fixed {.call ⟨⟨statement.method, statement.site⟩, frame.context, callee, context⟩}) <|
      match frame.program.summary? callee with
      | none => nothing
      | some summary =>
          orFail (frame.hierarchy.method? callee) fun method =>
            if method.isStatic then
              frame.exchanging statement call summary context summary.formals
            else
              both (frame.receiving context summary.formals receiver)
                (frame.exchanging statement call summary context (summary.formals.drop 1))

def yieldingObject (point : Option PointId) (object : HeapObject) : (result : Option Variable) →
    Demand
  | some result => frame.placing result point object nothing
  | none => nothing

def linkingClone (statement : Statement) (call : Call) (receiver : HeapObject) : Demand :=
  frame.allocating ⟨statement.method, statement.site, receiver.type, .clone⟩ fun copy =>
    both (frame.yieldingObject statement.point copy call.result) (frame.copying receiver copy)

def callee? (call : Call) (declared : Method) (receiver : HeapObject) : Option MethodId :=
  match call.kind with
  | .static | .special => some call.callee
  | .virtual => (frame.hierarchy.resolveMethod? receiver.type declared.selector).join

def linking (statement : Statement) (call : Call) (declared : Method) (receiver : HeapObject) :
    Demand :=
  provided ((⟨declared.declaring, []⟩ : TypeFilter).accepts? frame.hierarchy receiver.type) <|
    orFail (frame.callee? call declared receiver) fun callee =>
      if callee = TypeTable.cloneMethod then frame.linkingClone statement call receiver
      else frame.linkingMethod statement call callee (some receiver)

def calling (statement : Statement) (call : Call) : Demand :=
  match call.receiver with
  | none => frame.linkingMethod statement call call.callee none
  | some receiver =>
      both (frame.observing receiver statement.point fun _ => nothing) <|
        orFail (frame.hierarchy.method? call.callee) fun declared =>
          frame.observing receiver statement.point (frame.linking statement call declared)

/-! ## Statements -/

def fetching (key : FieldKey) (place : Place) (object : HeapObject) : Demand :=
  provided (frame.hasSlot? object key) <|
    orFail (frame.slot? object key) fun slot =>
      reading [.direct slot] fun held => fixed {.edge place held}

def loading (point : Option PointId) (target base : Variable) (key : FieldKey) : Demand :=
  orFail (frame.written? target point) fun place =>
    both (fixed {.node place}) (frame.observing base point (frame.fetching key place))

def putting (key : FieldKey) (object value : HeapObject) : Demand :=
  provided (frame.hasSlot? object key) <|
    orFail (frame.slotType? object key) fun type =>
      both (fixed {.node (.field object key type)})
        (frame.moving (.field object key type) (some ⟨type, []⟩) value)

def storing (point : Option PointId) (base : Variable) (key : FieldKey) (source : Variable) :
    Demand :=
  both (frame.observing source point fun _ => nothing) <|
    frame.observing base point fun object =>
      frame.observing source point (frame.putting key object)

/-- An exception goes to the first handler of its type, or to the summary variable. -/
def raising (summary : Variable) (object : HeapObject) :
    (caught : List TypeId) → List Handler → Demand
  | caught, [] =>
      orFail (frame.written? summary none) fun place =>
        both (fixed {.node place})
          (frame.moving place (some ⟨TypeTable.throwableType, caught⟩) object)
  | caught, handler :: handlers =>
      orFail (frame.written? handler.target none) fun place =>
        both (fixed {.node place}) <|
          both (frame.moving place (some ⟨handler.type, caught⟩) object)
            (raising summary object (caught ++ [handler.type]) handlers)

def demand (statement : Statement) : Demand :=
  let point := statement.point
  match statement.action with
  | .new target type =>
      frame.allocating ⟨statement.method, statement.site, type, .new⟩ fun object =>
        frame.placing target point object <|
          orFail (frame.hierarchy.classInitializersFor? type) fun initializers =>
            both (triggering initializers) (frame.folding object)
  | .newArray target type dims =>
      frame.allocating ⟨statement.method, statement.site, type, .new⟩ fun outer =>
        frame.placing target point outer <|
          both (frame.folding outer) (frame.nesting statement (dims - 1) 1 outer type)
  | .copy target source cast =>
      frame.assigning source point target point (cast.map fun type => ⟨type, []⟩)
  | .phi target sources =>
      orFail (frame.written? target point) fun place =>
        both (fixed {.node place}) <|
          each sources fun source => frame.observing source point (frame.moving place none)
  | .return source summary => frame.assigning source point summary none none
  | .load target base key => frame.loading point target base key
  | .store base key source => frame.storing point base key source
  | .static access declared field initializers =>
      both (triggering initializers) <|
        match access with
        | .get => frame.assigning field point declared point none
        | .put => frame.assigning declared point field point none
  | .call call => frame.calling statement call
  | .raise source handlers summary =>
      frame.observing source point fun object => frame.raising summary object [] handlers
  | .classInit initializers => triggering initializers

/-! ## The reader

Who evaluates a statement does not matter for what it demands. -/

section Reader

variable (reader : SubscriberId)

def withReader (frame : Frame) (reader : SubscriberId) : Frame :=
  { frame with subscriber := reader }

private theorem nesting_withReader (statement : Statement) (remaining dimension : Nat)
    (outer : HeapObject) (type : TypeId) :
    (frame.withReader reader).nesting statement remaining dimension outer type =
      frame.nesting statement remaining dimension outer type := by
  induction remaining generalizing dimension outer type with
  | zero => rfl
  | succ remaining ih =>
      unfold nesting
      simp only [ih]
      rfl

private theorem passing_withReader (point : Option PointId) (context : Context)
    (args formals : List (Option Variable)) :
    (frame.withReader reader).passing point context args formals =
      frame.passing point context args formals := by
  fun_induction frame.passing point context args formals with
  | case1 arg args formal formals ih =>
      rw [passing, ih]
      rfl
  | case2 arg args formal formals differs ih => rw [passing, ih]; exact differs
  | case3 args formals differs _ => rw [passing] <;> assumption

private theorem raising_withReader (summary : Variable) (object : HeapObject) (caught : List TypeId)
    (handlers : List Handler) : (frame.withReader reader).raising summary object caught handlers =
      frame.raising summary object caught handlers := by
  induction handlers generalizing caught with
  | nil => rfl
  | cons handler handlers ih =>
      unfold raising
      simp only [ih]
      rfl

private theorem linkingMethod_withReader (statement : Statement) (call : Call) (callee : MethodId)
    (receiver : Option HeapObject) :
    (frame.withReader reader).linkingMethod statement call callee receiver =
      frame.linkingMethod statement call callee receiver := by
  unfold linkingMethod exchanging
  simp only [passing_withReader]
  rfl

private theorem linking_withReader (statement : Statement) (call : Call) (declared : Method)
    (receiver : HeapObject) :
    (frame.withReader reader).linking statement call declared receiver =
      frame.linking statement call declared receiver := by
  unfold linking
  simp only [linkingMethod_withReader]
  rfl

theorem demand_withReader (statement : Statement) :
    (frame.withReader reader).demand statement = frame.demand statement := by
  unfold demand
  cases statement.action with
  | newArray target type dims =>
      simp only [nesting_withReader]
      rfl
  | call call =>
      simp only [calling, linkingMethod_withReader, funext (frame.linking_withReader reader _ _ _)]
      rfl
  | raise source handlers summary =>
      simp only [raising_withReader]
      rfl
  | static access declared field initializers => cases access <;> rfl
  | _ => rfl

end Reader

end Frame

end ObjectFlow
