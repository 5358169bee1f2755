import ObjectFlow.Proofs.Evaluation.Operation

/-!
# Reading through a view

A view shows some edges of the graph.  Reading a variable through it gives the
objects that are `shown` to a reader who knows these edges; the full view also
subscribes the reader to the nodes it looks at.
-/

namespace ObjectFlow

open Effect Eval Demand

/-! ## Views -/

namespace View

def Has (view : View) (graph : Graph) (node : NodeId) (id : ObjectId) : Prop :=
  match view with
  | .full => graph.HasEdge node id
  | .delta growth => (⟨node, id⟩ : Edge) ∈ growth.edges

/-- The view shows edges of the graph, among them all that are known. -/
structure Shows (view : View) (graph : Graph) (known : Set Fact) : Prop where
  within : ∀ node id, view.Has graph node id → graph.HasEdge node id
  edges : ∀ place object, .edge place object ∈ known → ∃ node id,
    graph.place? node = some place ∧ graph.object? id = some object ∧ view.Has graph node id

/-- What an evaluation that sees a view has to achieve of what is demanded: only the full view
subscribes. -/
def owed (view : View) (facts : Set Fact) : Set Fact :=
  match view with
  | .full => facts
  | .delta _ => unwatched facts

variable {view : View} {facts more : Set Fact}

theorem owed_subset (view : View) (facts : Set Fact) : view.owed facts ⊆ facts := by
  cases view with
  | full => exact subset_rfl
  | delta growth => exact fun _ owed => owed.1

private theorem owed_mono (subset : facts ⊆ more) : view.owed facts ⊆ view.owed more := by
  cases view with
  | full => exact subset
  | delta growth => exact unwatched_mono subset

theorem mem_owed {fact : Fact} (member : fact ∈ view.owed facts) (other : fact ∈ more) :
    fact ∈ view.owed more := by
  cases view with
  | full => exact other
  | delta growth => exact ⟨other, member.2⟩

theorem owed_union (view : View) (facts more : Set Fact) :
    view.owed (facts ∪ more) = view.owed facts ∪ view.owed more := by
  apply Set.Subset.antisymm
  · intro fact member
    rcases view.owed_subset _ member with found | found
    · exact .inl (mem_owed member found)
    · exact .inr (mem_owed member found)
  · exact Set.union_subset (owed_mono Set.subset_union_left) (owed_mono Set.subset_union_right)

theorem Shows.stable {reader : SubscriberId} (view : View) (known : Set Fact) :
    Stable reader fun state => view.Shows state.graph known := by
  rintro state after ⟨delta, growth, _⟩ shows
  have keeps : ∀ {node id}, view.Has state.graph node id → view.Has after.graph node id := by
    intro node id
    cases view with
    | full => exact growth.edge
    | delta growth => exact fun seen => seen
  constructor
  · intro node id seen
    cases view with
    | full => exact seen
    | delta _ => exact growth.edge (shows.within node id seen)
  · intro place object edge
    obtain ⟨node, id, located, named, seen⟩ := shows.edges place object edge
    exact ⟨node, id, growth.place located, growth.object named, keeps seen⟩

theorem shows_full {graph : Graph} (reader : SubscriberId) {known : Set Fact}
    (edges : ∀ place object, .edge place object ∈ known →
      .edge place object ∈ graph.facts reader) : (View.full).Shows graph known :=
  ⟨fun _ _ => id, edges⟩

def shownBy (graph : Graph) (growth : Delta) : Set Fact :=
  {fact | ∃ node id place object, fact = .edge place object ∧ graph.place? node = some place ∧
    graph.object? id = some object ∧ (⟨node, id⟩ : Edge) ∈ growth.edges}

section Growth

variable {graph : Graph} {growth : Delta}
  (within : ∀ node id, (⟨node, id⟩ : Edge) ∈ growth.edges → graph.HasEdge node id)
include within

theorem shows_delta : (View.delta growth).Shows graph (shownBy graph growth) := by
  refine ⟨within, ?_⟩
  rintro place object ⟨node, id, _, _, same, located, named, listed⟩
  cases same
  exact ⟨node, id, located, named, listed⟩

theorem shows_union {reader : SubscriberId} {old : Set Fact} (known : old ⊆ graph.facts reader) :
    (View.full).Shows graph (old ∪ shownBy graph growth) := by
  refine shows_full reader ?_
  rintro place object (edge | ⟨node, id, _, _, same, located, named, listed⟩)
  · exact known edge
  · cases same
    exact ⟨node, id, located, named, within node id listed⟩

end Growth

end View

/-! ## Sources -/

theorem mem_shown_iff {sources : List Source} {known : Set Fact} {object : HeapObject} :
    object ∈ shown sources known ↔ ∃ source ∈ sources, object ∈ shown [source] known := by
  constructor
  · rintro ⟨source, member, rest⟩
    exact ⟨source, member, source, List.mem_singleton_self _, rest⟩
  · rintro ⟨source, member, _, same, rest⟩
    obtain rfl := List.mem_singleton.mp same
    exact ⟨_, member, rest⟩

private theorem Looks.single {sources : List Source} {known : Set Fact} {fact : Fact}
    (looks : Looks sources known fact) : ∃ source ∈ sources, Looks [source] known fact := by
  cases looks with
  | node member => exact ⟨_, member, .node (List.mem_singleton_self _)⟩
  | watch member => exact ⟨_, member, .watch (List.mem_singleton_self _)⟩
  | object seen =>
      obtain ⟨source, member, seen⟩ := mem_shown_iff.mp seen
      exact ⟨source, member, .object seen⟩
  | failure member edge refused =>
      exact ⟨_, member, .failure (List.mem_singleton_self _) edge refused⟩

private theorem looks_single_subset {sources : List Source} {known : Set Fact} {source : Source}
    (member : source ∈ sources) : looks [source] known ⊆ looks sources known := by
  intro fact looks
  cases looks with
  | node same => obtain rfl := List.mem_singleton.mp same; exact .node member
  | watch same => obtain rfl := List.mem_singleton.mp same; exact .watch member
  | object seen => exact .object (mem_shown_iff.mpr ⟨source, member, seen⟩)
  | failure same edge refused =>
      obtain rfl := List.mem_singleton.mp same
      exact .failure member edge refused

/-- Ids that were read from some sources: they name what the sources show, and the reader has
done what looking at them takes. -/
structure Reads (reader : SubscriberId) (bound : Set Fact) (view : View) (sources : List Source)
    (known : Set Fact) (ids : IdSet) (state : EvalState) : Prop where
  names : Names state.graph ids (shown sources known) (shown sources bound)
  looked : view.owed (looks sources known) ⊆ state.graph.facts reader

namespace Reads

variable {reader : SubscriberId} {bound known : Set Fact} {view : View} {sources : List Source}

theorem stable (ids : IdSet) :
    Stable reader (Reads reader bound view sources known ids) :=
  fun _ _ grows reads =>
    ⟨Names.stable _ _ _ grows reads.names, reads.looked.trans (grows.facts reader)⟩

theorem of_source {source : Source} {ids : IdSet} {state : EvalState} {node : NodeId}
    (located : state.graph.place? node = some source.place)
    (watched : view.owed {.watch source.place} ⊆ state.graph.facts reader)
    (answered : ∀ held, .edge source.place held ∈ known → ∃ seen, source.becomes held = some seen)
    (names : Names state.graph ids (shown [source] known) (shown [source] bound)) :
    Reads reader bound view [source] known ids state := by
  refine ⟨names, fun fact owed => ?_⟩
  cases view.owed_subset _ owed with
  | node same =>
      obtain rfl := List.mem_singleton.mp same
      exact ⟨node, located⟩
  | watch same =>
      obtain rfl := List.mem_singleton.mp same
      exact watched (View.mem_owed owed rfl)
  | object seen =>
      obtain ⟨id, _, named⟩ := names.complete _ seen
      exact ⟨id, named⟩
  | failure same edge refused =>
      obtain rfl := List.mem_singleton.mp same
      obtain ⟨seen, answer⟩ := answered _ edge
      rw [refused] at answer
      cases answer

private theorem union {sets : List IdSet} {state : EvalState}
    (sound : ∀ ids ∈ sets, ∃ source ∈ sources, Reads reader bound view [source] known ids state)
    (complete : ∀ source ∈ sources, ∃ ids ∈ sets,
      Reads reader bound view [source] known ids state) :
    Reads reader bound view sources known (sets.foldl OrderedSet.union ∅) state := by
  refine ⟨⟨?_, ?_⟩, ?_⟩
  · intro id member
    rcases OrderedSet.mem_foldl_union.mp member with nothing | ⟨ids, listed, member⟩
    · exact absurd nothing (OrderedSet.not_mem_empty id)
    · obtain ⟨source, isSource, reads⟩ := sound ids listed
      obtain ⟨object, seen, named⟩ := reads.names.sound id member
      exact ⟨object, mem_shown_iff.mpr ⟨source, isSource, seen⟩, named⟩
  · intro object seen
    obtain ⟨source, isSource, seen⟩ := mem_shown_iff.mp seen
    obtain ⟨ids, listed, reads⟩ := complete source isSource
    obtain ⟨id, member, named⟩ := reads.names.complete object seen
    exact ⟨id, OrderedSet.mem_foldl_union.mpr (.inr ⟨ids, listed, member⟩), named⟩
  · intro fact owed
    obtain ⟨source, isSource, looks⟩ := (view.owed_subset _ owed).single
    obtain ⟨ids, _, reads⟩ := complete source isSource
    exact reads.looked (View.mem_owed owed looks)

end Reads

/-! ## Nodes and variables -/

variable {frame : Frame} {bound known : Set Fact} {state : EvalState} {view : View}

private theorem view_meets {node : NodeId} {place : Place}
    (inside : Inside frame.subscriber bound state) (shows : view.Shows state.graph known)
    (located : state.graph.place? node = some place) (allowed : .watch place ∈ bound) :
    Meets frame.subscriber bound (frame.view view node) state fun ids after =>
      Names after.graph ids {object | .edge place object ∈ known}
        {object | .edge place object ∈ bound} ∧
      view.owed {.watch place} ⊆ after.graph.facts frame.subscriber := by
  have names : ∀ ids : IdSet, (∀ id, id ∈ ids ↔ view.Has state.graph node id) →
      Names state.graph ids {object | .edge place object ∈ known}
        {object | .edge place object ∈ bound} := by
    intro ids same
    constructor
    · intro id member
      have edge := shows.within node id ((same id).mp member)
      obtain ⟨object, named⟩ := inside.valid.target node id edge
      exact ⟨object, inside.facts ⟨node, id, located, named, edge⟩, named⟩
    · intro object edge
      obtain ⟨other, id, located', named, seen⟩ := shows.edges place object edge
      obtain rfl := Graph.place?_injective located located'
      exact ⟨id, (same id).mpr seen, named⟩
  cases view with
  | full =>
      obtain ⟨ids, grown, run, adds, watched, same⟩ :=
        Graph.read_run frame.subscriber inside.valid located
      unfold Frame.view
      have grows : Grows frame.subscriber state { state with graph := grown } :=
        ⟨∅, adds.growth, (Delta.join_empty _).symm⟩
      refine Meets.onGraph inside run adds (Set.singleton_subset_iff.mpr allowed) ⟨?_, ?_⟩
      · exact Names.stable ids _ _ grows (names ids same)
      · exact Set.singleton_subset_iff.mpr ⟨node, adds.growth.place located, watched⟩
  | delta growth =>
      unfold Frame.view
      refine Meets.pure inside ⟨names _ fun id => Delta.mem_objectsOf, ?_⟩
      rintro fact ⟨rfl, plain⟩
      exact absurd rfl (plain place)

theorem direct_meets {node : NodeId} {place : Place}
    (inside : Inside frame.subscriber bound state) (shows : view.Shows state.graph known)
    (located : state.graph.place? node = some place)
    (closed : looks [.direct place] bound ⊆ bound) :
    Meets frame.subscriber bound (frame.view view node) state
      (Reads frame.subscriber bound view [.direct place] known) := by
  refine (view_meets inside shows located (closed (.watch (List.mem_singleton_self _)))).mono ?_
  rintro ids after grows _ ⟨names, watched⟩
  refine .of_source (grows.place located) watched (fun held _ => ⟨[held], rfl⟩) ?_
  rw [shown_direct, shown_direct]
  exact names

/-! ## Ageing -/

def Lists (graph : Graph) (ids : List ObjectId) (objects : List HeapObject) : Prop :=
  (∀ id ∈ ids, ∃ object ∈ objects, graph.object? id = some object) ∧
    ∀ object ∈ objects, ∃ id ∈ ids, graph.object? id = some object

theorem Lists.stable {reader : SubscriberId} (ids : List ObjectId) (objects : List HeapObject) :
    Stable reader fun state => Lists state.graph ids objects := by
  rintro state after grows ⟨sound, complete⟩
  constructor
  · intro id member
    obtain ⟨object, listed, named⟩ := sound id member
    exact ⟨object, listed, grows.object named⟩
  · intro object listed
    obtain ⟨id, member, named⟩ := complete object listed
    exact ⟨id, member, grows.object named⟩

theorem Lists.singleton {graph : Graph} {id : ObjectId} {object : HeapObject}
    (named : graph.object? id = some object) : Lists graph [id] [object] := by
  simp [Lists, named]

private theorem Lists.append {graph : Graph} {ids ids' : List ObjectId}
    {objects objects' : List HeapObject} (lists : Lists graph ids objects)
    (lists' : Lists graph ids' objects') : Lists graph (ids ++ ids') (objects ++ objects') := by
  simp only [Lists, List.mem_append]
  constructor
  · rintro id (member | member)
    · exact (lists.1 id member).imp fun _ answer => ⟨.inl answer.1, answer.2⟩
    · exact (lists'.1 id member).imp fun _ answer => ⟨.inr answer.1, answer.2⟩
  · rintro object (listed | listed)
    · exact (lists.2 object listed).imp fun _ answer => ⟨.inl answer.1, answer.2⟩
    · exact (lists'.2 object listed).imp fun _ answer => ⟨.inr answer.1, answer.2⟩

private theorem unaged_meets {write : ObservedWrite} {id : ObjectId} {object : HeapObject}
    (inside : Inside frame.subscriber bound state) (named : state.graph.object? id = some object)
    (same : frame.aged? write object = some [object]) :
    Meets frame.subscriber bound (Pure.pure [id]) state fun ids after =>
      ∃ seen, frame.aged? write object = some seen ∧ Lists after.graph ids seen :=
  .pure inside ⟨[object], same, .singleton named⟩

private theorem withSummary_meets {ids : List ObjectId} {objects : List HeapObject}
    {summary : HeapObject} (inside : Inside frame.subscriber bound state)
    (lists : Lists state.graph ids objects) (allowed : .object summary ∈ bound) :
    Meets frame.subscriber bound
      (do
        let older ← onGraph (Graph.object summary)
        Pure.pure (ids ++ [older]))
      state fun answer after => Lists after.graph answer (objects ++ [summary]) := by
  refine (object_meets inside allowed).bind ?_
  intro older after grows inside' named
  exact .pure inside' ((Lists.stable ids objects grows lists).append (.singleton named))

private theorem isRecentIn_meets (pure : frame.abstraction.policy.IsPure) (object : HeapObject)
    (inside : Inside frame.subscriber bound state) :
    Meets frame.subscriber bound (ask (frame.abstraction.isRecentIn object frame.context)) state
      fun answer _ => answer = decide (object.recency = .mostRecent ∧
        frame.abstraction.policy.record 0 object.site frame.context = object) := by
  obtain ⟨requests, run⟩ :=
    frame.abstraction.isRecentIn_run pure object frame.context state.requests
  exact .ask inside run fun _ _ => rfl

theorem ageObject_meets (pure : frame.abstraction.policy.IsPure) {write : ObservedWrite}
    {id : ObjectId} {object : HeapObject} (inside : Inside frame.subscriber bound state)
    (named : state.graph.object? id = some object)
    (refused : frame.aged? write object = none → .failure ∈ bound)
    (allowed : ∀ seen, frame.aged? write object = some seen → ∀ other ∈ seen,
      .object other ∈ bound) :
    Meets frame.subscriber bound
      (Frame.ageObject frame.program frame.abstraction frame.context write id) state
      fun ids after => ∃ seen, frame.aged? write object = some seen ∧
        Lists after.graph ids seen := by
  unfold Frame.ageObject
  cases found : frame.program.flow.point? write.kill with
  | none =>
      refine Meets.bind_inRange (fun _ => refused ?_) (by simp)
      simp [Frame.aged?, found]
  | some writer =>
      refine Meets.bind_inRange (by simp) ?_
      rintro _ ⟨⟩
      refine Meets.bind_get (Meets.bind_inRange (by simp [named]) ?_)
      intro _ same
      obtain rfl := Option.some.inj (named.symm.trans same)
      cases summarized : frame.abstraction.summaryOf object with
      | none => exact unaged_meets inside named (by simp [Frame.aged?, found, summarized])
      | some summary =>
          by_cases sameMethod : object.site.method = writer.method
          · simp only [sameMethod, ne_eq, not_true, if_false]
            refine (isRecentIn_meets pure object inside).bind ?_
            rintro _ after grows inside' rfl
            have named : after.graph.object? id = some object := grows.object named
            by_cases again : object.recency = .mostRecent ∧
                frame.abstraction.policy.record 0 object.site frame.context = object
            · simp only [again, and_self, decide_true, if_true]
              cases allocates : frame.program.flow.pointOf? writer.method object.site.site with
              | none =>
                  exact unaged_meets inside' named
                    (by simp [Frame.aged?, found, summarized, sameMethod, again, allocates])
              | some allocation =>
                  cases age : frame.program.flow.ageing write allocation with
                  | fresh =>
                      simp only [age]
                      exact unaged_meets inside' named
                        (by simp [Frame.aged?, found, summarized, sameMethod, again, allocates,
                          age])
                  | aged =>
                      have aged : frame.aged? write object = some [summary] := by
                        simp [Frame.aged?, found, summarized, sameMethod, again, allocates, age]
                      simp only [age]
                      exact (withSummary_meets inside' (by simp [Lists] : Lists _ [] [])
                        (allowed _ aged summary (by simp))).mono
                          fun _ _ _ _ lists => ⟨_, aged, lists⟩
                  | either =>
                      have aged : frame.aged? write object = some [object, summary] := by
                        simp [Frame.aged?, found, summarized, sameMethod, again, allocates, age]
                      simp only [age]
                      exact (withSummary_meets inside' (.singleton named)
                        (allowed _ aged summary (by simp))).mono
                          fun _ _ _ _ lists => ⟨_, aged, lists⟩
            · simp only [again, decide_false, Bool.false_eq_true, if_false]
              exact unaged_meets inside' named
                (by simp [Frame.aged?, found, summarized, sameMethod, again])
          · simp only [ne_eq, sameMethod, not_false_eq_true, if_true]
            exact unaged_meets inside named (by simp [Frame.aged?, found, summarized, sameMethod])

private theorem ageObjects_meets (pure : frame.abstraction.policy.IsPure) {write : ObservedWrite}
    {place : Place} {ids : IdSet} (inside : Inside frame.subscriber bound state)
    (names : Names state.graph ids {object | .edge place object ∈ known}
      {object | .edge place object ∈ bound})
    (closed : looks [⟨place, frame.aged? write⟩] bound ⊆ bound) :
    Meets frame.subscriber bound
      (Frame.ageObjects frame.program frame.abstraction frame.context write ids) state
      fun aged after =>
        Names after.graph aged (shown [⟨place, frame.aged? write⟩] known)
          (shown [⟨place, frame.aged? write⟩] bound) ∧
        ∀ held, .edge place held ∈ known → ∃ seen, frame.aged? write held = some seen := by
  have each : ∀ id ∈ ids.toList, ∀ after, Grows frame.subscriber state after →
      Inside frame.subscriber bound after →
      Meets frame.subscriber bound
        (Frame.ageObject frame.program frame.abstraction frame.context write id) after
        fun aged last => ∃ object, .edge place object ∈ bound ∧
          state.graph.object? id = some object ∧
          ∃ seen, frame.aged? write object = some seen ∧ Lists last.graph aged seen := by
    intro id member after grows inside'
    obtain ⟨object, held, named⟩ := names.sound id member
    refine (ageObject_meets pure inside' (grows.object named) ?_ ?_).mono ?_
    · exact fun refused => closed (.failure (List.mem_singleton_self _) held refused)
    · intro seen answer other listed
      exact closed (.object ⟨_, List.mem_singleton_self _, object, held, seen, answer, listed⟩)
    · exact fun aged last _ _ reached => ⟨object, held, named, reached⟩
  refine (Meets.mapM _ ?_ inside each).bind ?_
  · rintro id aged after last grows ⟨object, held, named, seen, answer, lists⟩
    exact ⟨object, held, named, seen, answer, Lists.stable aged seen grows lists⟩
  · rintro aged after grows inside' ⟨sound, complete⟩
    refine Meets.pure inside' ⟨⟨?_, ?_⟩, ?_⟩
    · intro id member
      obtain ⟨list, listed, member⟩ := List.mem_flatten.mp (OrderedSet.mem_ofList.mp member)
      obtain ⟨_, _, object, held, _, seen, answer, lists⟩ := sound list listed
      obtain ⟨other, isSeen, named⟩ := lists.1 id member
      exact ⟨other, ⟨_, List.mem_singleton_self _, object, held, seen, answer, isSeen⟩, named⟩
    · rintro other ⟨_, same, held, edge, seen, answer, isSeen⟩
      obtain rfl := List.mem_singleton.mp same
      obtain ⟨id, member, named⟩ := names.complete held edge
      obtain ⟨list, listed, object, _, named', seen', answer', lists⟩ := complete id member
      obtain rfl := Option.some.inj (named.symm.trans named')
      obtain rfl := Option.some.inj (answer.symm.trans answer')
      obtain ⟨id', member', named'⟩ := lists.2 other isSeen
      exact ⟨id', OrderedSet.mem_ofList.mpr (List.mem_flatten.mpr ⟨list, listed, member'⟩), named'⟩
    · intro held edge
      obtain ⟨id, member, named⟩ := names.complete held edge
      obtain ⟨list, listed, object, _, named', seen, answer, _⟩ := complete id member
      obtain rfl := Option.some.inj (named.symm.trans named')
      exact ⟨seen, answer⟩

/-! ## Variables -/

namespace Frame

theorem missingPoint_fails {α : Type} (declared : Variable) :
    Fails (frame.missingPoint declared : Eval α) := by
  unfold missingPoint
  exact .bind_right fun _ => .bind_right fun _ => .fail _

def killSource (frame : Frame) (declared : Variable) (point kill : PointId) : Source :=
  ⟨.localAt (frame.replica declared) kill, frame.aged? ⟨declared.id, kill, .before point⟩⟩

private theorem readKill_meets (pure : frame.abstraction.policy.IsPure) {declared : Variable}
    {point kill : PointId} (inside : Inside frame.subscriber bound state)
    (shows : view.Shows state.graph known)
    (closed : looks [frame.killSource declared point kill] bound ⊆ bound) :
    Meets frame.subscriber bound
      (do
        let node ← onGraph (Graph.node (.localAt (frame.replica declared) kill))
        let objects ← frame.view view node
        ageObjects frame.program frame.abstraction frame.context
          ⟨declared.id, kill, .before point⟩ objects)
      state (Reads frame.subscriber bound view [frame.killSource declared point kill] known) := by
  have listed := List.mem_singleton_self (frame.killSource declared point kill)
  refine (node_meets inside rfl (closed (.node listed))).bind ?_
  intro node after grows inside' located
  have shows := View.Shows.stable view known grows shows
  refine (view_meets inside' shows located (closed (.watch listed))).bind ?_
  rintro ids last grows' inside'' ⟨names, watched⟩
  refine (ageObjects_meets pure inside'' names closed).mono ?_
  rintro aged final grows'' _ ⟨names', answered⟩
  exact .of_source (grows''.place (grows'.place located))
    (watched.trans (grows''.facts _)) answered names'

theorem read_meets (pure : frame.abstraction.policy.IsPure) {declared : Variable}
    {point : Option PointId} {sources : List Source}
    (inside : Inside frame.subscriber bound state) (shows : view.Shows state.graph known)
    (found : frame.sources? declared point = some sources)
    (closed : looks sources bound ⊆ bound) :
    Meets frame.subscriber bound (frame.read view declared point) state
      (Reads frame.subscriber bound view sources known) := by
  unfold read
  by_cases sensitive : declared.flowSensitive = true
  · cases point with
    | none => simp [sources?, sensitive] at found
    | some point =>
        have same : sources = (frame.program.flow.reachingKills declared.id
            (.before point)).toList.map (frame.killSource declared point) := by
          simp only [sources?, sensitive, if_true, Option.map_some, Option.some.injEq] at found
          exact found.symm
        subst same
        simp only [sensitive, if_true]
        refine (Meets.mapM (fun kill => Reads frame.subscriber bound view
          [frame.killSource declared point kill] known) (fun _ ids => Reads.stable ids) inside
          fun kill member after grows inside' => ?_).bind ?_
        · exact readKill_meets pure inside' (View.Shows.stable view known grows shows)
            ((looks_single_subset (List.mem_map_of_mem member)).trans closed)
        · rintro sets after _ inside' ⟨sound, complete⟩
          refine Meets.pure inside' (.union ?_ ?_)
          · intro ids member
            obtain ⟨kill, listed, reads⟩ := sound ids member
            exact ⟨_, List.mem_map_of_mem listed, reads⟩
          · intro source member
            obtain ⟨kill, listed, rfl⟩ := List.mem_map.mp member
            exact complete kill listed
  · have same : sources = [.direct (.local (frame.replica declared))] := by
      simp only [sources?, sensitive, Bool.false_eq_true, if_false, Option.some.injEq] at found
      exact found.symm
    subst same
    simp only [sensitive, Bool.false_eq_true, if_false]
    refine (node_meets inside rfl (closed (.node (List.mem_singleton_self _)))).bind ?_
    intro node after grows inside' located
    exact direct_meets inside' (View.Shows.stable view known grows shows) located closed

private theorem read_fails {declared : Variable} {point : Option PointId}
    (absent : frame.sources? declared point = none) : Fails (frame.read view declared point) := by
  unfold sources? at absent
  unfold read
  by_cases sensitive : declared.flowSensitive = true
  · cases point with
    | none =>
        simp only [sensitive, if_true]
        exact missingPoint_fails declared
    | some point => simp [sensitive] at absent
  · simp [sensitive] at absent

private theorem target_fails {declared : Variable} {point : Option PointId}
    (absent : frame.written? declared point = none) : Fails (frame.target declared point) := by
  unfold written? at absent
  unfold target
  by_cases sensitive : declared.flowSensitive = true
  · simp only [sensitive, if_true] at absent ⊢
    cases point with
    | none => exact missingPoint_fails declared
    | some point =>
        by_cases writes : frame.program.flow.writes declared.id point = true
        · simp [writes] at absent
        · simp only [writes]
          exact missingPoint_fails declared
  · simp [sensitive] at absent

theorem target_meets {declared : Variable} {point : Option PointId} {place : Place}
    (inside : Inside frame.subscriber bound state)
    (found : frame.written? declared point = some place) (allowed : .node place ∈ bound) :
    Meets frame.subscriber bound (frame.target declared point) state fun node after =>
      after.graph.place? node = some place := by
  unfold written? at found
  unfold target
  by_cases sensitive : declared.flowSensitive = true
  · simp only [sensitive, if_true] at found ⊢
    cases point with
    | none => simp at found
    | some point =>
        by_cases writes : frame.program.flow.writes declared.id point = true
        · simp only [Option.bind_some, writes, if_true, Option.some.injEq] at found ⊢
          subst found
          exact node_meets inside rfl allowed
        · simp [writes] at found
  · simp only [sensitive, Bool.false_eq_true, if_false, Option.some.injEq] at found ⊢
    subst found
    exact node_meets inside rfl allowed

end Frame

/-! ## Meeting demands -/

/-- What an evaluation that sees a view owes of a demand is there. -/
def Settles (reader : SubscriberId) (view : View) (known : Set Fact) (demand : Demand)
    (state : EvalState) : Prop :=
  view.owed (demand known) ⊆ state.graph.facts reader

namespace Settles

variable {α : Type} {reader : SubscriberId}

theorem stable (demand : Demand) : Stable reader (Settles reader view known demand) :=
  stable_subset_facts reader _

theorem fixed {facts : Set Fact} (there : facts ⊆ state.graph.facts reader) :
    Settles reader view known (fixed facts) state :=
  (view.owed_subset facts).trans there

theorem nothing : Settles reader view known nothing state :=
  fixed (Set.empty_subset _)

theorem both {first second : Demand} (here : Settles reader view known first state)
    (there : Settles reader view known second state) :
    Settles reader view known (both first second) state := by
  unfold Settles Demand.both
  rw [View.owed_union]
  exact Set.union_subset here there

theorem orFail {value : Option α} {found : α} {body : α → Demand} (same : value = some found)
    (met : Settles reader view known (body found) state) :
    Settles reader view known (orFail value body) state := by
  subst same
  exact met

theorem each {items : List α} {body : α → Demand}
    (met : ∀ item ∈ items, Settles reader view known (body item) state) :
    Settles reader view known (each items body) state := by
  intro fact owed
  obtain ⟨item, member, demanded⟩ := view.owed_subset _ owed
  exact met item member (View.mem_owed owed demanded)

theorem reading {sources : List Source} {body : HeapObject → Demand}
    (looked : view.owed (looks sources known) ⊆ state.graph.facts reader)
    (met : ∀ object ∈ shown sources known, Settles reader view known (body object) state) :
    Settles reader view known (reading sources body) state := by
  unfold Settles Demand.reading
  rw [View.owed_union]
  refine Set.union_subset (fun fact owed => ?_) looked
  obtain ⟨object, seen, demanded⟩ := view.owed_subset _ owed
  exact met object seen (View.mem_owed owed demanded)

end Settles

namespace Frame

variable {β : Type} {goal : β → EvalState → Prop} {declared : Variable} {point : Option PointId}

theorem read_bind {body : HeapObject → Demand} {next : IdSet → Eval β}
    (pure : frame.abstraction.policy.IsPure) (inside : Inside frame.subscriber bound state)
    (shows : view.Shows state.graph known)
    (closed : frame.observing declared point body bound ⊆ bound)
    (rest : ∀ sources, frame.sources? declared point = some sources →
      (∀ object ∈ shown sources bound, body object bound ⊆ bound) →
      ∀ ids after, Grows frame.subscriber state after → Inside frame.subscriber bound after →
        Reads frame.subscriber bound view sources known ids after →
        Meets frame.subscriber bound (next ids) after goal) :
    Meets frame.subscriber bound (frame.read view declared point >>= next) state goal := by
  rcases orFail_closed closed with ⟨absent, allowed⟩ | ⟨sources, found, closed⟩
  · exact .of_fails (read_fails absent).bind allowed
  · obtain ⟨bodies, looks⟩ := Set.union_subset_iff.mp closed
    refine (read_meets pure inside shows found looks).bind (rest sources found ?_)
    exact fun object seen fact demanded => bodies ⟨object, seen, demanded⟩

theorem target_bind {body : Place → Demand} {next : NodeId → Eval β}
    (inside : Inside frame.subscriber bound state)
    (closed : orFail (frame.written? declared point) body bound ⊆ bound)
    (includes : ∀ place, .node place ∈ body place bound)
    (rest : ∀ place, frame.written? declared point = some place → body place bound ⊆ bound →
      ∀ node after, Grows frame.subscriber state after → Inside frame.subscriber bound after →
        after.graph.place? node = some place →
        Meets frame.subscriber bound (next node) after goal) :
    Meets frame.subscriber bound (frame.target declared point >>= next) state goal := by
  rcases orFail_closed closed with ⟨absent, allowed⟩ | ⟨place, found, closed⟩
  · exact .of_fails (target_fails absent).bind allowed
  · exact (target_meets inside found (closed (includes place))).bind (rest place found closed)

theorem inRange_bind {α : Type} {value : Option α} {body : α → Demand} {next : α → Eval β}
    (closed : orFail value body bound ⊆ bound)
    (rest : ∀ found, value = some found → body found bound ⊆ bound →
      Meets frame.subscriber bound (next found) state goal) :
    Meets frame.subscriber bound (inRange value >>= next) state goal := by
  rcases orFail_closed closed with ⟨absent, allowed⟩ | ⟨found, same, closed⟩
  · exact .bind_inRange (fun _ => allowed) (by simp [absent])
  · refine .bind_inRange (by simp [same]) fun other same' => ?_
    obtain rfl := Option.some.inj (same.symm.trans same')
    exact rest found same closed

end Frame

end ObjectFlow
