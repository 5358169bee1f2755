import ObjectFlow.Proofs.Evaluation.Origin
import ObjectFlow.Proofs.Hierarchy.Ranges
import ObjectFlow.Proofs.Policy
import ObjectFlow.Proofs.Program.Variables

/-!
# Demands that can be met

Whatever an action names is in the tables, its reads and writes have their
points, and the objects that it can see are of types that the table has.  Then
no look-up fails on the way, and the objects that it demands are of such types
again.  Only two things can still be missing: a method for a receiver, and the
point of a handler's variable (`Covers.demand_subset`).
-/

namespace ObjectFlow

open Demand

def Fact.Covered (hierarchy : Hierarchy) : Fact → Prop
  | .object named => hierarchy.HasType named.type
  | .edge _ held => hierarchy.HasType held.type
  | .initializer method => hierarchy.Names method
  | .failure => False
  | _ => True

def Hierarchy.covered (hierarchy : Hierarchy) : Set Fact := {fact | fact.Covered hierarchy}

def Hierarchy.Types (hierarchy : Hierarchy) (known : Set Fact) : Prop :=
  ∀ place object, .edge place object ∈ known → hierarchy.HasType object.type

theorem Hierarchy.types_of_subset {hierarchy : Hierarchy} {known : Set Fact}
    (within : known ⊆ insert .failure hierarchy.covered) : hierarchy.Types known := by
  intro place object edge
  exact (within edge).resolve_left nofun

def FieldKey.Covered (hierarchy : Hierarchy) : FieldKey → Prop
  | .named id => ∃ field, hierarchy.field? id = some field
  | .arrayContents => True

def Action.Covered (hierarchy : Hierarchy) : Action → Prop
  | .new _ type => hierarchy.HasType type
  | .newArray _ type _ => hierarchy.HasType type
  | .copy _ _ cast => ∀ type, cast = some type → hierarchy.HasType type
  | .load _ _ key => key.Covered hierarchy
  | .store _ key _ => key.Covered hierarchy
  | .static _ _ _ initializers => ∀ method ∈ initializers, hierarchy.Names method
  | .call invoked => ∃ declared, hierarchy.method? invoked.callee = some declared
  | .raise _ handlers _ => ∀ handler ∈ handlers, hierarchy.HasType handler.type
  | .classInit initializers => ∀ method ∈ initializers, hierarchy.Names method
  | _ => True

/-- What a statement asks for is there, but for the points of handlers. -/
structure Frame.Covers (frame : Frame) (statement : Statement) : Prop where
  linked : frame.hierarchy.Linked
  confined : ∃ depth heapDepth, frame.abstraction.policy.Confined depth heapDepth
  described : ∃ text, frame.program.describeStatement? frame.statement = some text
  points : ∀ id point, frame.program.flow.writes id point = true →
    ∃ place, frame.program.flow.point? point = some place
  reads : ∀ declared ∈ statement.action.used, declared.flowSensitive = true →
    ∃ point, statement.point = some point
  writes : ∀ write ∈ statement.writes, write.1.flowSensitive = true →
    write.1 ∈ statement.action.handled ∨
      ∃ point, write.2 = some point ∧ frame.program.flow.writes write.1.id point = true
  action : statement.action.Covered frame.hierarchy

namespace Frame

variable {α : Type} {frame : Frame} {statement : Statement} {known facts : Set Fact}
  {object : HeapObject}

/-! ## Pieces -/

theorem orFail_subset_of_some {value : Option α} {body : α → Demand} {found : α}
    (same : value = some found) (rest : body found known ⊆ facts) :
    orFail value body known ⊆ facts := by
  rw [same]
  exact rest

theorem provided_subset_of_some {answer : Option Bool} {body : Demand}
    (answered : ∃ holds, answer = some holds) (rest : answer = some true → body known ⊆ facts) :
    provided answer body known ⊆ facts := by
  obtain ⟨holds, rfl⟩ := answered
  cases holds with
  | false => exact Set.empty_subset _
  | true => exact rest rfl

theorem written?_of_plain (frame : Frame) {declared : Variable}
    (plain : declared.flowSensitive = false) (point : Option PointId) :
    ∃ place, frame.written? declared point = some place :=
  ⟨_, by rw [written?, plain]; rfl⟩

/-! ## Frames that cover a statement -/

namespace Covers

variable (covers : frame.Covers statement)

include covers

private theorem type_of_recorded {site : AllocationSite}
    (recorded : frame.recorded? site = some object) : object.type = site.type := by
  obtain ⟨_, _, confined⟩ := covers.confined
  obtain ⟨_, _, rfl⟩ := Option.map_eq_some_iff.mp recorded
  exact congrArg AllocationSite.type (confined.site site _)

theorem type_of_summary {summary : HeapObject}
    (isSummary : frame.abstraction.summaryOf object = some summary) :
    summary.type = object.type := by
  obtain ⟨_, _, confined⟩ := covers.confined
  exact congrArg AllocationSite.type (confined.summary isSummary).1

theorem exists_written? {declared : Variable} {point : Option PointId}
    (member : (declared, point) ∈ statement.writes)
    (other : declared ∉ statement.action.handled) :
    ∃ place, frame.written? declared point = some place := by
  cases sensitive : declared.flowSensitive with
  | false => exact frame.written?_of_plain sensitive point
  | true =>
      obtain ⟨kill, isPoint, writes⟩ := (covers.writes _ member sensitive).resolve_left other
      obtain rfl : point = some kill := isPoint
      exact ⟨_, by rw [written?, sensitive, if_pos rfl, Option.bind_some, if_pos writes]⟩

theorem exists_sources? {declared : Variable} (used : declared ∈ statement.action.used) :
    ∃ sources, frame.sources? declared statement.point = some sources := by
  unfold sources?
  split
  · next sensitive =>
      obtain ⟨point, isPoint⟩ := covers.reads declared used sensitive
      rw [isPoint]
      exact ⟨_, rfl⟩
  · exact ⟨_, rfl⟩

variable (within : frame.hierarchy.Types known)

include within

theorem hasType_of_seen (seen : frame.Seen known object) :
    frame.hierarchy.HasType object.type := by
  obtain ⟨place, held, edge, rfl | isSummary⟩ := seen
  · exact within place _ edge
  · rw [covers.type_of_summary isSummary]
    exact within place held edge

theorem looks_covered {declared : Variable} {point : Option PointId} {sources : List Source}
    (found : frame.sources? declared point = some sources) :
    looks sources known ⊆ frame.hierarchy.covered := by
  intro fact looked
  cases looked with
  | node _ => trivial
  | watch _ => trivial
  | object isShown => exact covers.hasType_of_seen within (seen_of_sources found isShown)
  | failure member _ refused =>
      unfold sources? at found
      split at found
      · obtain ⟨point, _, rfl⟩ := Option.map_eq_some_iff.mp found
        obtain ⟨kill, reaches, rfl⟩ := List.mem_map.mp member
        obtain ⟨place, isPoint⟩ :=
          covers.points _ _ (ControlFlow.writes_of_reachingKills reaches)
        simp [aged?, isPoint] at refused
      · cases found
        obtain rfl := List.mem_singleton.mp member
        cases refused

theorem observing_subset {declared : Variable} {body : HeapObject → Demand}
    (wide : frame.hierarchy.covered ⊆ facts) (used : declared ∈ statement.action.used)
    (rest : ∀ object, frame.hierarchy.HasType object.type → body object known ⊆ facts) :
    frame.observing declared statement.point body known ⊆ facts := by
  obtain ⟨sources, found⟩ := covers.exists_sources? used
  refine orFail_subset_of_some found
    (Set.union_subset ?_ ((covers.looks_covered within found).trans wide))
  rintro fact ⟨object, isShown, demanded⟩
  exact rest object (covers.hasType_of_seen within (seen_of_sources found isShown)) demanded

private theorem observing_covered {declared : Variable} {body : HeapObject → Demand}
    (used : declared ∈ statement.action.used)
    (rest : ∀ object, frame.hierarchy.HasType object.type →
      body object known ⊆ frame.hierarchy.covered) :
    frame.observing declared statement.point body known ⊆ frame.hierarchy.covered :=
  covers.observing_subset within subset_rfl used rest

end Covers

/-! ## Moves -/

section Direct

variable (within : frame.hierarchy.Types known)

include within

private theorem looks_direct_covered (place : Place) :
    looks [.direct place] known ⊆ frame.hierarchy.covered := by
  intro fact looked
  cases looked with
  | node _ => trivial
  | watch _ => trivial
  | object isShown =>
      rw [shown_direct] at isShown
      exact within place _ isShown
  | failure member _ refused =>
      obtain rfl := List.mem_singleton.mp member
      cases refused

private theorem reading_direct_covered {place : Place} {body : HeapObject → Demand}
    (rest : ∀ object, frame.hierarchy.HasType object.type →
      body object known ⊆ frame.hierarchy.covered) :
    reading [.direct place] body known ⊆ frame.hierarchy.covered := by
  refine Set.union_subset ?_ (looks_direct_covered within place)
  rintro fact ⟨object, isShown, demanded⟩
  rw [shown_direct] at isShown
  exact rest object (within place object isShown) demanded

private theorem returning_covered {place : Place} {target : Variable} {point : Option PointId}
    (written : ∃ goal, frame.written? target point = some goal) :
    frame.returning place target point known ⊆ frame.hierarchy.covered := by
  obtain ⟨goal, isGoal⟩ := written
  refine Set.union_subset (looks_direct_covered within place)
    (orFail_subset_of_some isGoal (Set.union_subset ?_ ?_))
  · exact Set.singleton_subset_iff.mpr trivial
  · exact reading_direct_covered within fun _ here => Set.singleton_subset_iff.mpr here

end Direct

private theorem moving_covered (linked : frame.hierarchy.Linked) {place : Place}
    {filter : Option TypeFilter} (here : frame.hierarchy.HasType object.type)
    (isFilter : ∀ found, filter = some found → frame.hierarchy.HasType found.type ∧
      ∀ other ∈ found.excluded, frame.hierarchy.HasType other) :
    frame.moving place filter object known ⊆ frame.hierarchy.covered := by
  refine provided_subset_of_some ?_ fun _ => Set.singleton_subset_iff.mpr here
  cases filter with
  | none => exact ⟨true, rfl⟩
  | some filter =>
      obtain ⟨isType, excluded⟩ := isFilter filter rfl
      exact linked.exists_accepts? here isType excluded

theorem filtered_covered (linked : frame.hierarchy.Linked) {place : Place} {type : TypeId}
    {excluded : List TypeId} (here : frame.hierarchy.HasType object.type)
    (isType : frame.hierarchy.HasType type)
    (isExcluded : ∀ other ∈ excluded, frame.hierarchy.HasType other) :
    frame.moving place (some ⟨type, excluded⟩) object known ⊆ frame.hierarchy.covered := by
  refine moving_covered linked here ?_
  rintro _ ⟨⟩
  exact ⟨isType, isExcluded⟩

theorem nodeEdge_covered {place : Place} (here : frame.hierarchy.HasType object.type) :
    fixed {.node place, .edge place object} known ⊆ frame.hierarchy.covered :=
  Set.insert_subset trivial (Set.singleton_subset_iff.mpr here)

namespace Covers

variable (covers : frame.Covers statement) (within : frame.hierarchy.Types known)

include covers within

private theorem assigning_covered {source target : Variable} {targetPoint : Option PointId}
    {filter : Option TypeFilter} (used : source ∈ statement.action.used)
    (written : ∃ place, frame.written? target targetPoint = some place)
    (isFilter : ∀ found, filter = some found → frame.hierarchy.HasType found.type ∧
      ∀ other ∈ found.excluded, frame.hierarchy.HasType other) :
    frame.assigning source statement.point target targetPoint filter known ⊆
      frame.hierarchy.covered := by
  obtain ⟨place, isPlace⟩ := written
  refine Set.union_subset ?_ (orFail_subset_of_some isPlace (Set.union_subset ?_ ?_))
  · exact covers.observing_covered within used fun _ _ => Set.empty_subset _
  · exact Set.singleton_subset_iff.mpr trivial
  · exact covers.observing_covered within used fun _ here =>
      moving_covered covers.linked here isFilter

omit within in
private theorem allocating_covered {site : AllocationSite} {body : HeapObject → Demand}
    (isType : frame.hierarchy.HasType site.type)
    (rest : ∀ object, object.type = site.type → body object known ⊆ frame.hierarchy.covered) :
    frame.allocating site body known ⊆ frame.hierarchy.covered := by
  obtain ⟨text, described⟩ := covers.described
  have recorded : frame.recorded? site =
      some (frame.abstraction.policy.record 0 site frame.context) := by
    rw [recorded?, described, Option.map_some]
  have sameType := covers.type_of_recorded recorded
  refine orFail_subset_of_some recorded (Set.union_subset ?_ (rest _ sameType))
  refine Set.singleton_subset_iff.mpr ?_
  show frame.hierarchy.HasType _
  rw [sameType]
  exact isType

/-! ## Slots -/

omit within in
theorem exists_slot? {key : FieldKey} (here : frame.hierarchy.HasType object.type)
    (isKey : key.Covered frame.hierarchy) :
    ∃ type, frame.slotType? object key = some type ∧ frame.hierarchy.HasType type ∧
      frame.slot? object key = some (.field object key type) := by
  suffices ∃ type, frame.slotType? object key = some type ∧ frame.hierarchy.HasType type by
    obtain ⟨type, isType, inRange⟩ := this
    exact ⟨type, isType, inRange, by rw [slot?, isType, Option.map_some]⟩
  cases key with
  | named id =>
      obtain ⟨field, isField⟩ := isKey
      refine ⟨field.type, ?_, (covers.linked.hasType_of_field? isField).1⟩
      rw [slotType?, isField, Option.map_some]
  | arrayContents =>
      obtain ⟨element, isElement, inner⟩ := covers.linked.exists_elementType? here
      refine ⟨element.getD TypeTable.objectType, ?_, ?_⟩
      · rw [slotType?, isElement, Option.map_some]
      · cases element with
        | none => exact covers.linked.hasType_object
        | some element => exact inner element rfl

omit within in
theorem exists_hasSlot? {key : FieldKey} (here : frame.hierarchy.HasType object.type)
    (isKey : key.Covered frame.hierarchy) : ∃ holds, frame.hasSlot? object key = some holds := by
  cases key with
  | arrayContents => exact here.exists_isArray?
  | named id =>
      obtain ⟨field, isField⟩ := isKey
      simp only [hasSlot?, isField, Option.bind_some]
      exact covers.linked.exists_isSubtype? here (covers.linked.hasType_of_field? isField).2

omit within in
private theorem exists_slots? (here : frame.hierarchy.HasType object.type) :
    ∃ keys, frame.slots? object = some keys ∧ ∀ key ∈ keys, key.Covered frame.hierarchy := by
  obtain ⟨kind, isKind⟩ := here.exists_kind?
  obtain ⟨fields, isFields, all⟩ := covers.linked.exists_instanceFields? here
  obtain ⟨keys, isKeys⟩ := covers.linked.exists_referenceKeys? all
  have named : ∀ key ∈ keys, key.Covered frame.hierarchy := by
    intro key member
    obtain ⟨id, listed, rfl⟩ := Hierarchy.mem_referenceKeys? isKeys member
    exact all id listed
  unfold slots?
  rw [isKind, Option.bind_some, isFields, Option.bind_some, isKeys]
  cases kind with
  | array element =>
      have isElement := covers.linked.table.elements _ element isKind
      obtain ⟨holds, isHolds⟩ := Hierarchy.HasType.exists_isReference? isElement
      dsimp only
      rw [isHolds, Option.map_some]
      refine ⟨_, rfl, fun key member => ?_⟩
      cases holds with
      | false => cases member
      | true =>
          obtain rfl := List.mem_singleton.mp member
          trivial
  | primitive _ => exact ⟨keys, rfl, named⟩
  | declared _ => exact ⟨keys, rfl, named⟩

private theorem copying_covered {source target : HeapObject}
    (here : frame.hierarchy.HasType source.type) (sameType : target.type = source.type) :
    frame.copying source target known ⊆ frame.hierarchy.covered := by
  obtain ⟨keys, isKeys, all⟩ := covers.exists_slots? here
  refine orFail_subset_of_some isKeys (each_subset fun key member => ?_)
  obtain ⟨_, _, _, isHere⟩ := covers.exists_slot? here (all key member)
  obtain ⟨_, _, _, isThere⟩ := covers.exists_slot? (sameType ▸ here) (all key member)
  refine orFail_subset_of_some isHere (Set.union_subset ?_ (orFail_subset_of_some isThere
    (Set.union_subset ?_ ?_)))
  · exact Set.singleton_subset_iff.mpr trivial
  · exact Set.singleton_subset_iff.mpr trivial
  · exact reading_direct_covered within fun _ held => Set.singleton_subset_iff.mpr held

private theorem folding_covered (here : frame.hierarchy.HasType object.type) :
    frame.folding object known ⊆ frame.hierarchy.covered := by
  unfold folding
  cases isSummary : frame.abstraction.summaryOf object with
  | none => exact Set.empty_subset _
  | some summary =>
      have sameType := covers.type_of_summary isSummary
      refine Set.union_subset ?_ (covers.copying_covered within here sameType)
      refine Set.singleton_subset_iff.mpr ?_
      show frame.hierarchy.HasType summary.type
      exact sameType ▸ here

private theorem nesting_covered {remaining dimension : Nat} {outer : HeapObject} {type : TypeId}
    (isType : frame.hierarchy.HasType type) (sameType : outer.type = type) :
    frame.nesting statement remaining dimension outer type known ⊆ frame.hierarchy.covered := by
  induction remaining generalizing dimension outer type with
  | zero => exact Set.empty_subset _
  | succ remaining ih =>
      obtain ⟨element, isElement, inner⟩ := covers.linked.exists_elementType? isType
      refine orFail_subset_of_some isElement ?_
      cases element with
      | none => exact Set.empty_subset _
      | some innerType =>
          have isInner := inner innerType rfl
          refine provided_subset_of_some isInner.exists_isArray? fun _ => ?_
          refine covers.allocating_covered isInner fun object ofType => ?_
          have isKey : FieldKey.arrayContents.Covered frame.hierarchy := trivial
          obtain ⟨_, _, _, isSlot⟩ := covers.exists_slot? (sameType ▸ isType) isKey
          have here : frame.hierarchy.HasType object.type := ofType ▸ isInner
          refine orFail_subset_of_some isSlot (Set.union_subset (nodeEdge_covered here) ?_)
          exact Set.union_subset (covers.folding_covered within here) (ih isInner ofType)

/-! ## Calls -/

private theorem passing_covered {context : Context} {args formals : List (Option Variable)}
    (used : ∀ arg, some arg ∈ args → arg ∈ statement.action.used) :
    frame.passing statement.point context args formals known ⊆ frame.hierarchy.covered := by
  induction args generalizing formals with
  | nil => exact Set.empty_subset _
  | cons arg args ih =>
      have rest : ∀ formals, frame.passing statement.point context args formals known ⊆
          frame.hierarchy.covered :=
        fun _ => ih fun other member => used other (List.mem_cons_of_mem _ member)
      cases formals with
      | nil => cases arg <;> exact Set.empty_subset _
      | cons formal formals =>
          cases arg with
          | none => cases formal <;> exact rest formals
          | some arg =>
              cases formal with
              | none => exact rest formals
              | some formal =>
                  refine Set.union_subset ?_ (Set.union_subset ?_ (rest formals))
                  · exact covers.observing_covered within (used arg List.mem_cons_self)
                      fun _ here => Set.singleton_subset_iff.mpr here
                  · exact Set.singleton_subset_iff.mpr trivial

omit covers within in
private theorem receiving_covered {context : Context} {formals : List (Option Variable)}
    {receiver : Option HeapObject}
    (received : ∀ object, receiver = some object → frame.hierarchy.HasType object.type) :
    frame.receiving context formals receiver known ⊆ frame.hierarchy.covered := by
  unfold receiving
  generalize formals.head? = first
  cases first with
  | none => exact Set.empty_subset _
  | some first =>
      cases first with
      | none => exact Set.empty_subset _
      | some this =>
          cases receiver with
          | none => exact Set.empty_subset _
          | some object => exact nodeEdge_covered (received object rfl)

section Call

variable {call : Call} (isCall : statement.action = .call call)

include isCall

omit within in
theorem exists_result? {result : Variable} (isResult : call.result = some result) :
    ∃ place, frame.written? result statement.point = some place := by
  refine covers.exists_written? ?_ (by simp [isCall, Action.handled])
  simp [Statement.writes, isCall, isResult]

omit within in
private theorem exists_exception? : ∃ place, frame.written? call.exception none = some place := by
  refine covers.exists_written? ?_ (by simp [isCall, Action.handled])
  simp [Statement.writes, isCall]

private theorem exchanging_covered {summary : MethodSummary} {context : Context}
    {formals : List (Option Variable)} :
    frame.exchanging statement call summary context formals known ⊆ frame.hierarchy.covered := by
  refine Set.union_subset ?_ (Set.union_subset ?_ ?_)
  · refine covers.passing_covered within fun arg member => ?_
    rw [isCall]
    exact List.mem_append_right _ (List.mem_filterMap.mpr ⟨some arg, member, rfl⟩)
  · cases isResult : call.result with
    | none => exact Set.empty_subset _
    | some result =>
        cases summary.result with
        | none => exact Set.empty_subset _
        | some returned =>
            exact returning_covered within (covers.exists_result? isCall isResult)
  · exact returning_covered within (covers.exists_exception? isCall)

private theorem linkingMethod_covered {callee : MethodId} {method : Method}
    (isMethod : frame.hierarchy.method? callee = some method) {receiver : Option HeapObject}
    (received : ∀ object, receiver = some object → frame.hierarchy.HasType object.type) :
    frame.linkingMethod statement call callee receiver known ⊆ frame.hierarchy.covered := by
  obtain ⟨text, described⟩ := covers.described
  refine orFail_subset_of_some described (Set.union_subset ?_ ?_)
  · exact Set.singleton_subset_iff.mpr trivial
  · cases frame.program.summary? callee with
    | none => exact Set.empty_subset _
    | some summary =>
        refine orFail_subset_of_some isMethod ?_
        split
        · exact covers.exchanging_covered within isCall
        · exact Set.union_subset (receiving_covered received)
            (covers.exchanging_covered within isCall)

private theorem linkingClone_covered (here : frame.hierarchy.HasType object.type) :
    frame.linkingClone statement call object known ⊆ frame.hierarchy.covered := by
  refine covers.allocating_covered here fun copy ofType => ?_
  have ofType : copy.type = object.type := ofType
  refine Set.union_subset ?_ (covers.copying_covered within here ofType)
  cases isResult : call.result with
  | none => exact Set.empty_subset _
  | some result =>
      obtain ⟨place, isPlace⟩ := covers.exists_result? isCall isResult
      exact orFail_subset_of_some isPlace
        (Set.union_subset (nodeEdge_covered (ofType ▸ here)) (Set.empty_subset _))

theorem linking_subset (wide : frame.hierarchy.covered ⊆ facts) {declared : Method}
    (isDeclared : frame.hierarchy.method? call.callee = some declared)
    (here : frame.hierarchy.HasType object.type)
    (resolves : frame.hierarchy.isSubtype? object.type declared.declaring = some true →
      frame.callee? call declared object = none → .failure ∈ facts) :
    frame.linking statement call declared object known ⊆ facts := by
  have isClass := covers.linked.hasType_of_method? isDeclared
  unfold linking
  rw [TypeFilter.accepts?_any]
  refine provided_subset_of_some (covers.linked.exists_isSubtype? here isClass) fun accepted => ?_
  cases found : frame.callee? call declared object with
  | none => exact Set.singleton_subset_iff.mpr (resolves accepted found)
  | some callee =>
      obtain ⟨method, isMethod⟩ : ∃ method, frame.hierarchy.method? callee = some method := by
        unfold callee? at found
        split at found
        · cases found
          exact ⟨declared, isDeclared⟩
        · cases found
          exact ⟨declared, isDeclared⟩
        · have isAnswer := Option.join_eq_some_iff.mp found
          obtain ⟨method, isMethod, _⟩ := covers.linked.resolveMethod?_spec isAnswer
          exact ⟨method, isMethod⟩
      refine Set.Subset.trans ?_ wide
      rw [orFail]
      split
      · exact covers.linkingClone_covered within isCall here
      · refine covers.linkingMethod_covered within isCall isMethod ?_
        rintro _ ⟨⟩
        exact here

omit within in
theorem exists_method? : ∃ declared, frame.hierarchy.method? call.callee = some declared := by
  have isCovered := covers.action
  rw [isCall] at isCovered
  exact isCovered

private theorem calling_subset (wide : frame.hierarchy.covered ⊆ facts)
    (dispatches : ∀ receiver, call.receiver = some receiver → call.kind = .virtual →
      .failure ∈ facts) :
    frame.calling statement call known ⊆ facts := by
  obtain ⟨declared, isDeclared⟩ := covers.exists_method? isCall
  unfold calling
  cases isReceiver : call.receiver with
  | none =>
      exact Set.Subset.trans (covers.linkingMethod_covered within isCall isDeclared nofun) wide
  | some receiver =>
      have used : receiver ∈ statement.action.used := by
        simp [isCall, Action.used, isReceiver]
      refine Set.union_subset ?_ (orFail_subset_of_some isDeclared ?_)
      · exact covers.observing_subset within wide used fun _ _ => Set.empty_subset _
      · refine covers.observing_subset within wide used fun object here => ?_
        refine covers.linking_subset within isCall wide isDeclared here fun _ missing => ?_
        refine dispatches receiver isReceiver ?_
        cases isKind : call.kind with
        | virtual => rfl
        | special => rw [callee?, isKind] at missing; cases missing
        | static => rw [callee?, isKind] at missing; cases missing

end Call

/-! ## Statements -/

private theorem loading_covered {target base : Variable} {key : FieldKey}
    (isLoad : statement.action = .load target base key) :
    frame.loading statement.point target base key known ⊆ frame.hierarchy.covered := by
  have isKey : key.Covered frame.hierarchy := by
    have isCovered := covers.action
    rw [isLoad] at isCovered
    exact isCovered
  obtain ⟨place, isPlace⟩ : ∃ place, frame.written? target statement.point = some place :=
    covers.exists_written? (by simp [Statement.writes, isLoad, Action.defined?])
      (by simp [isLoad, Action.handled])
  refine orFail_subset_of_some isPlace (Set.union_subset ?_ ?_)
  · exact Set.singleton_subset_iff.mpr trivial
  · refine covers.observing_covered within (by simp [isLoad, Action.used]) fun object here => ?_
    refine provided_subset_of_some (covers.exists_hasSlot? here isKey) fun _ => ?_
    obtain ⟨_, _, _, isSlot⟩ := covers.exists_slot? here isKey
    refine orFail_subset_of_some isSlot (reading_direct_covered within fun _ held => ?_)
    exact Set.singleton_subset_iff.mpr held

private theorem storing_covered {base source : Variable} {key : FieldKey}
    (isStore : statement.action = .store base key source) :
    frame.storing statement.point base key source known ⊆ frame.hierarchy.covered := by
  have isKey : key.Covered frame.hierarchy := by
    have isCovered := covers.action
    rw [isStore] at isCovered
    exact isCovered
  have usesBase : base ∈ statement.action.used := by simp [isStore, Action.used]
  have usesSource : source ∈ statement.action.used := by simp [isStore, Action.used]
  refine Set.union_subset ?_ ?_
  · exact covers.observing_covered within usesSource fun _ _ => Set.empty_subset _
  · refine covers.observing_covered within usesBase fun object here => ?_
    refine covers.observing_covered within usesSource fun value isValue => ?_
    refine provided_subset_of_some (covers.exists_hasSlot? here isKey) fun _ => ?_
    obtain ⟨type, isType, inRange, _⟩ := covers.exists_slot? here isKey
    refine orFail_subset_of_some isType (Set.union_subset ?_ ?_)
    · exact Set.singleton_subset_iff.mpr trivial
    · exact filtered_covered covers.linked isValue inRange (by simp)

omit covers within in
private theorem triggering_covered {initializers : List MethodId}
    (names : ∀ method ∈ initializers, frame.hierarchy.Names method) :
    triggering initializers known ⊆ frame.hierarchy.covered := by
  rintro _ ⟨method, member, rfl⟩
  exact names method member

omit within in
theorem exists_defined? {target : Variable} (isTarget : statement.action.defined? = some target)
    (other : ∀ call, statement.action ≠ .call call) :
    ∃ place, frame.written? target statement.point = some place := by
  refine covers.exists_written? ?_ ?_
  · unfold Statement.writes
    split
    · next isReturn => rw [isReturn] at isTarget; cases isTarget
    · next isCall => exact absurd isCall (other _)
    · next isRaise => rw [isRaise] at isTarget; cases isTarget
    · rw [isTarget]
      exact List.mem_singleton_self _
  · cases isAction : statement.action with
    | raise _ _ _ => rw [isAction] at isTarget; cases isTarget
    | _ => simp [Action.handled]

private theorem new_covered {target : Variable} {type : TypeId}
    (isNew : statement.action = .new target type) :
    frame.demand statement known ⊆ frame.hierarchy.covered := by
  have isType : frame.hierarchy.HasType type := by
    have isCovered := covers.action
    rw [isNew] at isCovered
    exact isCovered
  obtain ⟨place, isPlace⟩ := covers.exists_defined? (by rw [isNew]; rfl) (by simp [isNew])
  obtain ⟨initializers, triggers⟩ := isType.exists_classInitializersFor?
  rw [demand, isNew]
  refine covers.allocating_covered isType fun object ofType => ?_
  have here : frame.hierarchy.HasType object.type := ofType ▸ isType
  refine orFail_subset_of_some isPlace (Set.union_subset (nodeEdge_covered here) ?_)
  refine orFail_subset_of_some triggers (Set.union_subset ?_ ?_)
  · exact triggering_covered fun _ => Hierarchy.names_of_linked covers.linked triggers
  · exact covers.folding_covered within here

private theorem newArray_covered {target : Variable} {type : TypeId} {dims : Nat}
    (isNew : statement.action = .newArray target type dims) :
    frame.demand statement known ⊆ frame.hierarchy.covered := by
  have isType : frame.hierarchy.HasType type := by
    have isCovered := covers.action
    rw [isNew] at isCovered
    exact isCovered
  obtain ⟨place, isPlace⟩ := covers.exists_defined? (by rw [isNew]; rfl) (by simp [isNew])
  rw [demand, isNew]
  refine covers.allocating_covered isType fun outer ofType => ?_
  have here : frame.hierarchy.HasType outer.type := ofType ▸ isType
  refine orFail_subset_of_some isPlace (Set.union_subset (nodeEdge_covered here) ?_)
  exact Set.union_subset (covers.folding_covered within here)
    (covers.nesting_covered within isType ofType)

omit within in
private theorem raising_subset (wide : frame.hierarchy.covered ⊆ facts) (absent : .failure ∈ facts)
    {summary : Variable} {caught : List TypeId} {handlers : List Handler}
    (here : frame.hierarchy.HasType object.type)
    (isCaught : ∀ type ∈ caught, frame.hierarchy.HasType type)
    (isHandler : ∀ handler ∈ handlers, frame.hierarchy.HasType handler.type) :
    frame.raising summary object caught handlers known ⊆ facts := by
  have node : ∀ place, fixed {.node place} known ⊆ facts :=
    fun _ => Set.singleton_subset_iff.mpr (wide trivial)
  induction handlers generalizing caught with
  | nil =>
      refine orFail_subset absent fun place _ => Set.union_subset (node place) ?_
      exact (filtered_covered covers.linked here covers.linked.table.throwable isCaught).trans wide
  | cons handler handlers ih =>
      obtain ⟨isType, others⟩ := List.forall_mem_cons.mp isHandler
      refine orFail_subset absent fun place _ =>
        Set.union_subset (node place) (Set.union_subset ?_ (ih ?_ others))
      · exact (filtered_covered covers.linked here isType isCaught).trans wide
      · exact List.forall_mem_append.mpr ⟨isCaught, List.forall_mem_singleton.mpr isType⟩

/-- What a statement demands is covered, but for the failure of one that looks for the method of a
receiver or hands exceptions to handlers. -/
theorem demand_subset (wide : frame.hierarchy.covered ⊆ facts)
    (dispatches : ∀ call receiver, statement.action = .call call →
      call.receiver = some receiver → call.kind = .virtual → .failure ∈ facts)
    (raises : ∀ source handlers summary, statement.action = .raise source handlers summary →
      .failure ∈ facts) :
    frame.demand statement known ⊆ facts := by
  have isCovered := covers.action
  have written := @covers.exists_defined?
  generalize isAction : statement.action = action at isCovered written
  cases action with
  | new target type => exact (covers.new_covered within isAction).trans wide
  | newArray target type dims => exact (covers.newArray_covered within isAction).trans wide
  | copy target source cast =>
      rw [demand, isAction]
      refine Set.Subset.trans (covers.assigning_covered within
        (isAction ▸ List.mem_singleton_self _) (written rfl (by simp))
        fun filter isFilter => ?_) wide
      obtain ⟨type, isCast, rfl⟩ := Option.map_eq_some_iff.mp isFilter
      exact ⟨isCovered type isCast, by simp⟩
  | phi target sources =>
      obtain ⟨place, isPlace⟩ := written rfl (by simp)
      rw [demand, isAction]
      refine orFail_subset_of_some isPlace
        (Set.union_subset ?_ (each_subset fun source member => ?_))
      · exact Set.singleton_subset_iff.mpr (wide trivial)
      · exact covers.observing_subset within wide (isAction ▸ member) fun _ here =>
          Set.Subset.trans (moving_covered covers.linked here (by simp)) wide
  | «return» source summary =>
      rw [demand, isAction]
      refine Set.Subset.trans (covers.assigning_covered within
        (isAction ▸ List.mem_singleton_self _) (covers.exists_written? ?_ ?_) (by simp)) wide
      · simp [Statement.writes, isAction]
      · simp [isAction, Action.handled]
  | load target base key =>
      rw [demand, isAction]
      exact (covers.loading_covered within isAction).trans wide
  | store base key source =>
      rw [demand, isAction]
      exact (covers.storing_covered within isAction).trans wide
  | static access declared field initializers =>
      rw [demand, isAction]
      refine Set.Subset.trans (Set.union_subset (triggering_covered isCovered) ?_) wide
      cases access with
      | get =>
          exact covers.assigning_covered within (isAction ▸ List.mem_singleton_self _)
            (written rfl (by simp)) (by simp)
      | put =>
          exact covers.assigning_covered within (isAction ▸ List.mem_singleton_self _)
            (written rfl (by simp)) (by simp)
  | call call =>
      rw [demand, isAction]
      exact covers.calling_subset within isAction wide fun _ => dispatches call _ isAction
  | raise source handlers summary =>
      rw [demand, isAction]
      refine covers.observing_subset within wide (isAction ▸ List.mem_singleton_self _)
        fun object here => ?_
      exact covers.raising_subset wide (raises source handlers summary isAction) here (by simp)
        isCovered
  | classInit initializers =>
      rw [demand, isAction]
      exact (triggering_covered isCovered).trans wide

end Covers

end Frame

end ObjectFlow
