import ObjectFlow.Proofs.Evaluation.Transfer

/-!
# What calls achieve

Linking a call to one target meets the demand of that target, whichever view
it is linked through.
-/

namespace ObjectFlow.Frame

open Effect Eval Demand

variable {β : Type} {goal : β → EvalState → Prop} {frame : Frame} {bound known : Set Fact}
  {state : EvalState} {view : View}

private theorem calleeNode_meets {context : Context} {declared : Variable}
    (inside : Inside frame.subscriber bound state)
    (allowed : .node (frame.calleePlace context declared) ∈ bound) :
    Meets frame.subscriber bound
      (onGraph (Graph.node (.local (declared.replica context frame.abstraction.initialContext))))
      state fun node after => after.graph.place? node = some (frame.calleePlace context declared) :=
  node_meets inside rfl allowed

private theorem passing_meets (pure : frame.abstraction.policy.IsPure) {point : Option PointId}
    {context : Context} {args formals : List (Option Variable)}
    (inside : Inside frame.subscriber bound state) (shows : view.Shows state.graph known)
    (closed : frame.passing point context args formals bound ⊆ bound) :
    Meets frame.subscriber bound
      (frame.passArguments view point (fun declared => onGraph (Graph.node
        (.local (declared.replica context frame.abstraction.initialContext)))) args formals)
      state fun _ => Settles frame.subscriber view known
        (frame.passing point context args formals) := by
  induction args generalizing formals state with
  | nil => exact .pure inside .nothing
  | cons arg args ih =>
      cases formals with
      | nil => cases arg <;> exact .pure inside .nothing
      | cons formal formals =>
          cases arg with
          | none => cases formal <;> exact ih inside shows closed
          | some arg =>
              cases formal with
              | none => exact ih inside shows closed
              | some formal =>
                  unfold passArguments
                  obtain ⟨looking, rest⟩ := both_closed closed
                  obtain ⟨located, rest⟩ := both_closed rest
                  refine read_bind pure inside shows looking ?_
                  intro sources found flows ids after grows inside' reads
                  refine (calleeNode_meets inside' (located rfl)).bind ?_
                  intro node after₁ grows₁ inside₁ located₁
                  have reads := reads.stable ids grows₁
                  refine (addEdges_meets inside₁ located₁ reads.names fun object seen =>
                    flows object seen rfl).bind ?_
                  intro _ after₂ grows₂ inside₂ edges
                  have reads := reads.stable ids grows₂
                  have shows :=
                    View.Shows.stable view known ((grows.trans grows₁).trans grows₂) shows
                  refine (ih inside₂ shows rest).mono ?_
                  intro _ last grows₃ _ passed
                  refine .both (.orFail found (.reading (reads.stable ids grows₃).looked ?_))
                    (.both (.fixed ?_) passed)
                  · exact fun object seen =>
                      .fixed (Set.singleton_subset_iff.mpr (grows₃.facts _ (edges object seen)))
                  · exact Set.singleton_subset_iff.mpr ⟨node, grows₃.place (grows₂.place located₁)⟩

private theorem returned_meets {context : Context} {declared target : Variable}
    {point : Option PointId} (inside : Inside frame.subscriber bound state)
    (shows : view.Shows state.graph known)
    (closed : frame.returning (frame.calleePlace context declared) target point bound ⊆ bound) :
    Meets frame.subscriber bound
      (do
        let node ← onGraph (Graph.node
          (.local (declared.replica context frame.abstraction.initialContext)))
        let objects ← frame.view view node
        let goal ← frame.target target point
        grow (Graph.addEdges goal objects))
      state fun _ => Settles frame.subscriber view known
        (frame.returning (frame.calleePlace context declared) target point) := by
  have allowed : .node (frame.calleePlace context declared) ∈ bound :=
    (both_closed closed).1 (.node (List.mem_singleton_self (Source.direct _)))
  refine (calleeNode_meets inside allowed).bind ?_
  intro node after grows inside' located
  exact returning_meets inside' (View.Shows.stable view known grows shows) located closed

private theorem returned_bind {context : Context} {declared target : Variable}
    {point : Option PointId} {next : Unit → Eval β} (inside : Inside frame.subscriber bound state)
    (shows : view.Shows state.graph known)
    (closed : frame.returning (frame.calleePlace context declared) target point bound ⊆ bound)
    (rest : ∀ after, Grows frame.subscriber state after → Inside frame.subscriber bound after →
      Settles frame.subscriber view known
        (frame.returning (frame.calleePlace context declared) target point) after →
      Meets frame.subscriber bound (next ()) after goal) :
    Meets frame.subscriber bound
      (do
        let node ← onGraph (Graph.node
          (.local (declared.replica context frame.abstraction.initialContext)))
        let objects ← frame.view view node
        let goal ← frame.target target point
        let done ← grow (Graph.addEdges goal objects)
        next done)
      state goal := by
  have whole := (returned_meets inside shows closed).bind fun _ => rest
  simpa only [bind_assoc] using whole

private theorem exchanging_meets (pure : frame.abstraction.policy.IsPure) {statement : Statement}
    {call : Call} {summary : MethodSummary} {context : Context} {formals : List (Option Variable)}
    (inside : Inside frame.subscriber bound state) (shows : view.Shows state.graph known)
    (closed : frame.exchanging statement call summary context formals bound ⊆ bound) :
    let calleeNode := fun (declared : Variable) => onGraph (Graph.node
      (.local (declared.replica context frame.abstraction.initialContext)))
    Meets frame.subscriber bound
      (do
        frame.passArguments view statement.point calleeNode call.args formals
        match call.result, summary.result with
        | some result, some returned => do
            let node ← calleeNode returned
            let objects ← frame.view view node
            let target ← frame.target result statement.point
            grow (Graph.addEdges target objects)
        | _, _ => Pure.pure ()
        let node ← calleeNode summary.exception
        let thrown ← frame.view view node
        let exception ← frame.target call.exception none
        grow (Graph.addEdges exception thrown))
      state fun _ => Settles frame.subscriber view known
        (frame.exchanging statement call summary context formals) := by
  intro calleeNode
  obtain ⟨passed, closed⟩ := both_closed closed
  obtain ⟨returned, thrown⟩ := both_closed closed
  refine (passing_meets pure inside shows passed).bind ?_
  intro _ after₁ grows₁ inside₁ passed
  have shows := View.Shows.stable view known grows₁ shows
  have settled : ∀ {last}, Grows frame.subscriber after₁ last →
      Settles frame.subscriber view known
        (frame.yielding statement.point context call.result summary.result) last →
      Settles frame.subscriber view known
        (frame.returning (frame.calleePlace context summary.exception) call.exception none) last →
      Settles frame.subscriber view known
        (frame.exchanging statement call summary context formals) last :=
    fun grows₂ returned thrown => .both (Settles.stable _ grows₂ passed) (.both returned thrown)
  generalize call.result = result at returned settled ⊢
  generalize summary.result = answer at returned settled ⊢
  cases result with
  | none =>
      refine (returned_meets inside₁ shows thrown).mono ?_
      exact fun _ last grows₂ _ thrown => settled grows₂ .nothing thrown
  | some result =>
      cases answer with
      | none =>
          refine (returned_meets inside₁ shows thrown).mono ?_
          exact fun _ last grows₂ _ thrown => settled grows₂ .nothing thrown
      | some answer =>
          refine returned_bind inside₁ shows returned ?_
          intro after₂ grows₂ inside₂ returned
          refine (returned_meets inside₂ (View.Shows.stable view known grows₂ shows) thrown).mono ?_
          intro _ last grows₃ _ thrown
          exact settled (grows₂.trans grows₃) (Settles.stable _ grows₃ returned) thrown

def Receives (graph : Graph) : Option ObjectId → Option HeapObject → Prop
  | none, none => True
  | some id, some object => graph.object? id = some object
  | _, _ => False

private theorem Receives.stable {reader : SubscriberId} (receiver : Option ObjectId)
    (object : Option HeapObject) :
    Stable reader fun state => Receives state.graph receiver object := by
  intro state after grows received
  cases receiver <;> cases object
  · trivial
  · exact received
  · exact received
  · exact grows.object received

private theorem received_bind (view : View) (known : Set Fact) {context : Context}
    {formals : List (Option Variable)}
    {receiver : Option ObjectId} {object : Option HeapObject} {next : Unit → Eval β}
    (inside : Inside frame.subscriber bound state)
    (received : Receives state.graph receiver object)
    (closed : frame.receiving context formals object bound ⊆ bound)
    (rest : ∀ after, Grows frame.subscriber state after → Inside frame.subscriber bound after →
      Settles frame.subscriber view known (frame.receiving context formals object) after →
      Meets frame.subscriber bound (next ()) after goal) :
    Meets frame.subscriber bound
      (match formals.head?, receiver with
        | some (some this), some id => do
            let node ← onGraph (Graph.node
              (.local (this.replica context frame.abstraction.initialContext)))
            let done ← grow (Graph.addEdge node id)
            next done
        | _, _ => next ())
      state goal := by
  unfold receiving at closed rest
  generalize formals.head? = first at closed rest ⊢
  cases receiver with
  | none =>
      cases object with
      | none =>
          cases first with
          | none => exact rest state (.refl state) inside .nothing
          | some first => cases first <;> exact rest state (.refl state) inside .nothing
      | some object => exact received.elim
  | some id =>
      cases object with
      | none => exact received.elim
      | some object =>
          cases first with
          | none => exact rest state (.refl state) inside .nothing
          | some first =>
              cases first with
              | none => exact rest state (.refl state) inside .nothing
              | some this =>
                  refine (calleeNode_meets inside (closed (.inl rfl))).bind ?_
                  intro node after grows inside' located
                  refine (addEdge_meets inside' located (grows.object received)
                    (closed (.inr rfl))).bind ?_
                  intro _ last grows' inside'' edge
                  refine rest last (grows.trans grows') inside'' (.fixed ?_)
                  refine Set.insert_subset ⟨node, grows'.place located⟩ ?_
                  exact Set.singleton_subset_iff.mpr edge

private theorem received_run {receiver : Option ObjectId} {object : Option HeapObject}
    (received : Receives state.graph receiver object) :
    (receiver.mapM fun id => (inRange (state.graph.object? id) : Eval HeapObject)) state =
      (.ok object, state) := by
  cases receiver <;> cases object
  · rfl
  · exact received.elim
  · exact received.elim
  · have named : state.graph.object? _ = some _ := received
    simp only [Option.mapM_some, named]
    rfl

def entering (frame : Frame) (statement : Statement) (call : Call) (summary : MethodSummary)
    (receiver : Option HeapObject) (method : Method) : Demand :=
  let context := frame.calleeContext statement receiver
  if method.isStatic then frame.exchanging statement call summary context summary.formals
  else both (frame.receiving context summary.formals receiver)
    (frame.exchanging statement call summary context (summary.formals.drop 1))

private theorem linkingMethod_eq {callee : MethodId} {summary : MethodSummary}
    (summarized : frame.program.summary? callee = some summary) (statement : Statement)
    (call : Call) (receiver : Option HeapObject) :
    frame.linkingMethod statement call callee receiver =
      orFail (frame.program.describeStatement? frame.statement) fun _ =>
        both (fixed {.call ⟨⟨statement.method, statement.site⟩, frame.context, callee,
            frame.calleeContext statement receiver⟩})
          (orFail (frame.hierarchy.method? callee)
            (frame.entering statement call summary receiver)) := by
  unfold linkingMethod
  rw [summarized]
  rfl

private theorem merge_meets (pure : frame.abstraction.policy.IsPure) (statement : Statement)
    (receiver : Option HeapObject) (origin : String)
    (inside : Inside frame.subscriber bound state) :
    Meets frame.subscriber bound
      (ask (frame.abstraction.merge ⟨statement.method, statement.site⟩ receiver frame.context
        origin))
      state fun answer _ => answer = frame.calleeContext statement receiver := by
  obtain ⟨requests, run⟩ := frame.abstraction.merge_run pure
    ⟨statement.method, statement.site⟩ receiver frame.context origin state.requests
  exact .ask inside run fun _ _ => rfl

theorem linkingMethod_meets (pure : frame.abstraction.policy.IsPure) {statement : Statement}
    {call : Call} {callee : MethodId} {receiver : Option ObjectId} {object : Option HeapObject}
    (inside : Inside frame.subscriber bound state) (shows : view.Shows state.graph known)
    (received : Receives state.graph receiver object)
    (closed : frame.linkingMethod statement call callee object bound ⊆ bound) :
    Meets frame.subscriber bound (frame.linkMethod statement call callee receiver view) state
      fun _ => Settles frame.subscriber view known
        (frame.linkingMethod statement call callee object) := by
  unfold linkMethod
  refine .bind_get ?_
  refine .bind_congr ((received_run received).trans (run_pure object state).symm) ?_
  rw [pure_bind]
  unfold describe
  refine inRange_bind closed ?_
  intro origin described closed
  refine (merge_meets pure statement object origin inside).bind ?_
  rintro _ after₁ grows₁ inside₁ rfl
  obtain ⟨called, closed⟩ := both_closed closed
  refine (addCall_meets inside₁ (called rfl)).bind ?_
  intro _ after₂ grows₂ inside₂ edge
  have shows := View.Shows.stable view known (grows₁.trans grows₂) shows
  have received := Receives.stable receiver object (grows₁.trans grows₂) received
  cases summarized : frame.program.summary? callee with
  | none =>
      unfold linkingMethod
      rw [summarized]
      refine .pure inside₂ (.orFail described (.both (.fixed ?_) .nothing))
      exact Set.singleton_subset_iff.mpr edge
  | some summary =>
      rw [summarized] at closed
      refine inRange_bind closed ?_
      intro method found closed
      have settled : ∀ {last}, Grows frame.subscriber after₂ last →
          Settles frame.subscriber view known (frame.entering statement call summary object method)
            last → Settles frame.subscriber view known
              (frame.linkingMethod statement call callee object) last := by
        intro last grows₃ entered
        rw [linkingMethod_eq summarized]
        refine .orFail described (.both (.fixed ?_) (.orFail found entered))
        exact Set.singleton_subset_iff.mpr (grows₃.facts _ edge)
      unfold entering at settled
      by_cases isStatic : method.isStatic = true
      · simp only [isStatic, if_true, pure_bind] at closed settled ⊢
        refine (exchanging_meets pure inside₂ shows closed).mono ?_
        exact fun _ _ grows₃ _ exchanged => settled grows₃ exchanged
      · simp only [isStatic, Bool.false_eq_true, if_false, pure_bind] at closed settled ⊢
        obtain ⟨receives, exchanges⟩ := both_closed closed
        refine received_bind view known inside₂ received receives ?_
        intro after₃ grows₃ inside₃ receives
        refine (exchanging_meets pure inside₃ (View.Shows.stable view known grows₃ shows)
          exchanges).mono ?_
        intro _ _ grows₄ _ exchanged
        exact settled (grows₃.trans grows₄) (.both (Settles.stable _ grows₄ receives) exchanged)

private theorem linkingClone_meets (pure : frame.abstraction.policy.IsPure) {statement : Statement}
    {call : Call} {receiver : ObjectId} {object : HeapObject}
    (inside : Inside frame.subscriber bound state) (shows : view.Shows state.graph known)
    (named : state.graph.object? receiver = some object)
    (closed : frame.linkingClone statement call object bound ⊆ bound) :
    Meets frame.subscriber bound (frame.linkClone statement call receiver view) state
      fun _ => Settles frame.subscriber view known (frame.linkingClone statement call object) := by
  unfold linkClone
  refine .bind_congr ((objectType_run named).trans (run_pure object.type state).symm) ?_
  rw [pure_bind]
  refine record_bind pure inside closed ?_
  intro copy recorded closed id after grows inside' named'
  obtain ⟨placed, copied⟩ := both_closed closed
  have shows := View.Shows.stable view known grows shows
  have settled : ∀ {last}, Grows frame.subscriber after last →
      Settles frame.subscriber view known
        (frame.yieldingObject statement.point copy call.result) last →
      Settles frame.subscriber view known (frame.copying object copy) last →
      Settles frame.subscriber view known (frame.linkingClone statement call object) last :=
    fun grows' placed copied => .orFail recorded (.both
      (.fixed (Set.singleton_subset_iff.mpr ⟨id, grows'.object named'⟩)) (.both placed copied))
  generalize call.result = result at placed settled ⊢
  cases result with
  | none =>
      refine (copyFields_meets inside' shows (grows.object named) named' copied).mono ?_
      exact fun _ last grows' _ copied => settled grows' .nothing copied
  | some result =>
      refine target_bind inside' placed (fun _ => .inl (.inl rfl)) ?_
      intro place written placed node after₁ grows₁ inside₁ located
      refine (addEdge_meets inside₁ located (grows₁.object named')
        ((both_closed placed).1 (.inr rfl))).bind ?_
      intro _ after₂ grows₂ inside₂ edge
      have grows₁₂ := grows₁.trans grows₂
      refine (copyFields_meets inside₂ (View.Shows.stable view known grows₁₂ shows)
        (grows₁₂.object (grows.object named)) (grows₁₂.object named') copied).mono ?_
      intro _ last grows₃ _ copied
      refine settled (grows₁₂.trans grows₃) (.orFail written (.both (.fixed ?_) .nothing)) copied
      refine Set.insert_subset ⟨node, grows₃.place (grows₂.place located)⟩ ?_
      exact Set.singleton_subset_iff.mpr (grows₃.facts _ edge)

/-! ## Targets -/

def targetOf (callee : MethodId) (receiver : ObjectId) : CallTarget :=
  if callee = TypeTable.cloneMethod then .clone receiver else .method callee (some receiver)

private theorem targetOf_injective {callee callee' : MethodId} {receiver receiver' : ObjectId}
    (same : targetOf callee receiver = targetOf callee' receiver') :
    callee = callee' ∧ receiver = receiver' := by
  unfold targetOf at same
  split at same <;> split at same
  · next isClone isClone' =>
      cases same
      exact ⟨isClone.trans isClone'.symm, rfl⟩
  · cases same
  · cases same
  · cases same
    exact ⟨rfl, rfl⟩

private theorem resolveReceiver_meets {call : Call} {declared : Method} {receiver : ObjectId}
    {object : HeapObject} (inside : Inside frame.subscriber bound state)
    (named : state.graph.object? receiver = some object)
    (refused : frame.callee? call declared object = none → .failure ∈ bound) :
    Meets frame.subscriber bound (frame.resolveReceiver call declared receiver) state
      fun target _ => ∃ callee, frame.callee? call declared object = some callee ∧
        target = targetOf callee receiver := by
  unfold resolveReceiver
  unfold callee? at refused ⊢
  generalize call.kind = kind at refused ⊢
  cases kind with
  | static => exact .pure inside ⟨call.callee, rfl, rfl⟩
  | special => exact .pure inside ⟨call.callee, rfl, rfl⟩
  | virtual =>
      refine .bind_congr ((objectType_run named).trans (run_pure object.type state).symm) ?_
      rw [pure_bind]
      cases found : frame.hierarchy.resolveMethod? object.type declared.selector with
      | none => exact .bind_inRange (fun _ => refused (by rw [found]; rfl)) (by simp)
      | some answer =>
          refine .bind_inRange (by simp) ?_
          rintro _ ⟨⟩
          cases answer with
          | none =>
              refine .of_fails ?_ (refused (by rw [found]; rfl))
              exact .bind_right fun _ => .bind_right fun _ => (Fails.fail _).bind
          | some callee => exact .pure inside ⟨callee, rfl, rfl⟩

def running (frame : Frame) (statement : Statement) (call : Call) (callee : MethodId)
    (receiver : HeapObject) : Demand :=
  if callee = TypeTable.cloneMethod then frame.linkingClone statement call receiver
  else frame.linkingMethod statement call callee (some receiver)

theorem linking_eq (statement : Statement) (call : Call) (declared : Method)
    (receiver : HeapObject) : frame.linking statement call declared receiver =
      provided ((⟨declared.declaring, []⟩ : TypeFilter).accepts? frame.hierarchy receiver.type)
        (orFail (frame.callee? call declared receiver) fun callee =>
          frame.running statement call callee receiver) :=
  rfl

private theorem link_meets (pure : frame.abstraction.policy.IsPure) {statement : Statement}
    {call : Call} {callee : MethodId} {receiver : ObjectId} {object : HeapObject}
    (inside : Inside frame.subscriber bound state) (shows : view.Shows state.graph known)
    (named : state.graph.object? receiver = some object)
    (closed : frame.running statement call callee object bound ⊆ bound) :
    Meets frame.subscriber bound (frame.link statement call view (targetOf callee receiver)) state
      fun _ => Settles frame.subscriber view known
        (frame.running statement call callee object) := by
  unfold targetOf
  unfold running at closed ⊢
  split at closed
  · next isClone =>
      simp only [isClone, if_true]
      exact linkingClone_meets pure inside shows named closed
  · next isMethod =>
      simp only [isMethod, if_false]
      exact linkingMethod_meets pure inside shows named closed

structure Dispatches (frame : Frame) (call : Call) (declared : Method) (graph : Graph)
    (target : CallTarget) (id : ObjectId) (receiver : HeapObject) (callee : MethodId) : Prop where
  named : graph.object? id = some receiver
  resolves : frame.callee? call declared receiver = some callee
  target : target = targetOf callee id

private theorem resolveKept_meets {statement : Statement} {call : Call} {declared : Method}
    {graph : Graph} {id : ObjectId} {object : HeapObject}
    (inside : Inside frame.subscriber bound state) (named : graph.object? id = some object)
    (remains : state.graph.object? id = some object)
    (accepted : (⟨declared.declaring, []⟩ : TypeFilter).accepts? frame.hierarchy object.type =
      some true)
    (closed : frame.linking statement call declared object bound ⊆ bound) :
    Meets frame.subscriber bound (frame.resolveReceiver call declared id) state fun target _ =>
      ∃ object callee, frame.Dispatches call declared graph target id object callee ∧
        frame.running statement call callee object bound ⊆ bound := by
  rw [linking_eq, accepted] at closed
  have closed : orFail (frame.callee? call declared object) _ bound ⊆ bound := closed
  refine (resolveReceiver_meets inside remains fun absent => ?_).mono ?_
  · rw [absent] at closed
    exact closed rfl
  · rintro target last _ _ ⟨callee, resolves, same⟩
    rw [resolves] at closed
    exact ⟨object, callee, ⟨named, resolves, same⟩, closed⟩

private theorem links_meets (pure : frame.abstraction.policy.IsPure) {statement : Statement}
    {call : Call} {declared : Method} {graph : Graph} {targets : List CallTarget}
    (inside : Inside frame.subscriber bound state) (shows : view.Shows state.graph known)
    (remain : ∀ {id object}, graph.object? id = some object →
      state.graph.object? id = some object)
    (resolved : ∀ target ∈ targets, ∃ id object callee,
      frame.Dispatches call declared graph target id object callee ∧
        frame.running statement call callee object bound ⊆ bound) :
    Meets frame.subscriber bound (targets.forM (frame.link statement call view)) state
      fun _ after => ∀ target ∈ targets, ∀ id object callee,
        frame.Dispatches call declared graph target id object callee →
        Settles frame.subscriber view known (frame.running statement call callee object) after := by
  refine Meets.forM (fun target last => ∀ id object callee,
    frame.Dispatches call declared graph target id object callee →
    Settles frame.subscriber view known (frame.running statement call callee object) last)
    ?_ inside ?_
  · exact fun target last later grows met id object callee dispatches =>
      Settles.stable _ grows (met id object callee dispatches)
  · intro target member after grows inside'
    obtain ⟨id, object, callee, dispatches, closed⟩ := resolved target member
    rw [dispatches.target]
    refine (link_meets pure inside' (View.Shows.stable view known grows shows)
      (grows.object (remain dispatches.named)) closed).mono ?_
    intro _ last _ _ met id' object' callee' other
    obtain ⟨rfl, rfl⟩ := targetOf_injective other.target
    obtain rfl := Option.some.inj (dispatches.named.symm.trans other.named)
    exact met

theorem linking_meets (pure : frame.abstraction.policy.IsPure) {statement : Statement} {call : Call}
    {declared : Method} {ids : IdSet} {least most : Set HeapObject}
    (found : frame.hierarchy.method? call.callee = some declared)
    (inside : Inside frame.subscriber bound state) (shows : view.Shows state.graph known)
    (names : Names state.graph ids least most)
    (closed : ∀ object ∈ most, frame.linking statement call declared object bound ⊆ bound) :
    Meets frame.subscriber bound
      (do
        let targets ← frame.resolve call ids
        targets.forM (frame.link statement call view))
      state fun _ after => ∀ object ∈ least, Settles frame.subscriber view known
        (frame.linking statement call declared object) after := by
  unfold resolve
  simp only [bind_assoc]
  refine .bind_inRange (by simp [found]) ?_
  intro _ same
  obtain rfl := Option.some.inj (found.symm.trans same)
  refine .bind_get ?_
  rcases filter_names frame.hierarchy ⟨declared.declaring, []⟩ names with
    ⟨kept, filtered, names', answered⟩ | ⟨filtered, object, allowed, refused⟩
  · refine .bind_inRange (by simp [filtered]) ?_
    intro _ same
    obtain rfl := Option.some.inj (filtered.symm.trans same)
    refine (Meets.mapM (fun id target _ => ∃ object callee,
      frame.Dispatches call declared state.graph target id object callee ∧
        frame.running statement call callee object bound ⊆ bound)
      (fun _ _ _ _ _ fact => fact) inside ?_).bind ?_
    · intro id member after grows inside'
      obtain ⟨object, ⟨allowed, accepted⟩, named⟩ := names'.sound id member
      exact resolveKept_meets inside' named (grows.object named) accepted (closed object allowed)
    · rintro targets after grows inside' ⟨sound, complete⟩
      have resolved := fun target member =>
        (sound target member).imp fun id answer => And.right answer
      refine (links_meets pure inside' (View.Shows.stable view known grows shows) grows.object
        resolved).mono ?_
      intro _ last _ _ met object wanted
      obtain ⟨answer, answers⟩ := answered object wanted
      rw [linking_eq]
      refine .orFail answers ?_
      cases answer with
      | false => exact .nothing
      | true =>
          obtain ⟨id, member, named⟩ := names'.complete object ⟨wanted, answers⟩
          obtain ⟨target, listed, object', callee, dispatches, _⟩ := complete id member
          obtain rfl := Option.some.inj (named.symm.trans dispatches.named)
          exact .orFail dispatches.resolves (met target listed id object callee dispatches)
  · have closed := closed object allowed
    rw [linking_eq, refused] at closed
    exact .bind_inRange (fun _ => closed rfl) (by simp [filtered])

private theorem resolve_fails {call : Call} (absent : frame.hierarchy.method? call.callee = none)
    (ids : IdSet) : Fails (frame.resolve call ids) := by
  unfold resolve
  rw [absent]
  exact fun state => ⟨.outOfRange, state, rfl⟩

theorem linking_bind (pure : frame.abstraction.policy.IsPure) {statement : Statement} {call : Call}
    {body : Method → Demand} {ids : IdSet} {least most : Set HeapObject} {next : PUnit → Eval β}
    (inside : Inside frame.subscriber bound state) (shows : view.Shows state.graph known)
    (names : Names state.graph ids least most)
    (closed : orFail (frame.hierarchy.method? call.callee) body bound ⊆ bound)
    (links : ∀ declared, body declared bound ⊆ bound → ∀ object ∈ most,
      frame.linking statement call declared object bound ⊆ bound)
    (rest : ∀ declared, frame.hierarchy.method? call.callee = some declared →
      ∀ after, Grows frame.subscriber state after → Inside frame.subscriber bound after →
        (∀ object ∈ least, Settles frame.subscriber view known
          (frame.linking statement call declared object) after) →
        Meets frame.subscriber bound (next ⟨⟩) after goal) :
    Meets frame.subscriber bound
      (do
        let targets ← frame.resolve call ids
        let done ← targets.forM (frame.link statement call view)
        next done)
      state goal := by
  rcases orFail_closed closed with ⟨absent, allowed⟩ | ⟨declared, found, closed⟩
  · exact .of_fails (resolve_fails absent ids).bind allowed
  · have linked := (linking_meets pure found inside shows names (links declared closed)).bind
      fun _ => rest declared found
    simpa only [bind_assoc] using linked

end ObjectFlow.Frame
