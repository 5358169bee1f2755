import ObjectFlow.Proofs.Hierarchy.Acceptance
import ObjectFlow.Proofs.Hierarchy.Inheritance

/-!
# The hierarchy of a program

The classes are declared, then their supertypes, then their members: three
passes, each of which completes one class after the other.  In the end the
hierarchy of an accepted program shows what its classes declare.
-/

namespace ObjectFlow

open TypeTable Effect

/-! ## Declaring the classes -/

namespace Sketch

def declare (sketch : Sketch) (declared : Declaration.Class) : Sketch :=
  { sketch with
    classes := sketch.classes ++ [declared]
    state := Function.update sketch.state declared.name declared.outline }

variable {sketch : Sketch} {declared : Declaration.Class}

private theorem nodup_base_declare (distinct : sketch.base.Nodup)
    (fresh : declared.name ∉ sketch.base) : (sketch.declare declared).base.Nodup := by
  have grown := List.nodup_append.mpr ⟨distinct, List.nodup_singleton declared.name,
    fun name member _ last same => fresh (List.mem_singleton.mp last ▸ same ▸ member)⟩
  simpa [base, declare] using grown

theorem stands_declare_iff (unwritten : sketch.written = []) (fresh : declared.name ∉ sketch.base)
    {name : String} {description : TypeDescription} :
    (sketch.declare declared).Stands name description ↔
      sketch.Stands name description ∨
        name = declared.name ∧ description = .declared declared.outline := by
  have state : ∀ {other : Declaration.Class}, other ∈ sketch.classes →
      (sketch.declare declared).state other.name = sketch.state other.name := by
    intro other member
    refine Function.update_of_ne (fun same => fresh ?_) _ _
    exact List.mem_append_right _ (same ▸ List.mem_map_of_mem member)
  constructor
  · intro stands
    cases stands with
    | initial found => exact .inl (.initial found)
    | declared member isName =>
        subst isName
        rcases List.mem_append.mp member with earlier | last
        · rw [state earlier]
          exact .inl (.declared earlier rfl)
        · obtain rfl := List.mem_singleton.mp last
          exact .inr ⟨rfl, by simp [declare]⟩
    | array isWritten =>
        rw [show (sketch.declare declared).written = [] from unwritten] at isWritten
        cases isWritten
  · rintro (stands | ⟨rfl, rfl⟩)
    · cases stands with
      | initial found => exact .initial found
      | declared member isName =>
          subst isName
          rw [← state member]
          exact .declared (List.mem_append_left _ member) rfl
      | array isWritten =>
          rw [unwritten] at isWritten
          cases isWritten
    · have known : (sketch.declare declared).state declared.name = declared.outline := by
        simp [declare]
      rw [← known]
      exact .declared (List.mem_append_right _ List.mem_cons_self) rfl

private theorem stands_unwritten (unwritten : sketch.written = []) {name : String}
    {description : TypeDescription} (stands : sketch.Stands name description) :
    name ∈ sketch.base := by
  cases stands with
  | initial found => exact List.mem_append_left _ (mem_names_of_described? found)
  | declared member isName =>
      exact List.mem_append_right _ (isName ▸ List.mem_map_of_mem member)
  | array isWritten =>
      rw [unwritten] at isWritten
      cases isWritten

end Sketch

namespace Declaration

private theorem declareClass_decides {table : TypeTable} {sketch : Sketch}
    (shows : table.Shows sketch) (unwritten : sketch.written = []) (declared : Class) :
    Decides (declareClass declared.name declared.isInterface) table
      (declared.name ∉ sketch.base ∧
        Text.stripBrackets? declared.name = none ∧ declared.name ≠ "") fun id after =>
      after.Shows (sketch.declare declared) ∧ table.Stays after ∧
        after.typeName? id = some declared.name := by
  unfold declareClass
  refine .bind_get ?_
  cases found : table.find? declared.name with
  | some known =>
      have isName := (find?_eq_some_iff shows.names).mp found
      obtain ⟨_, _, _, _, stands⟩ := shows.stands_of_typeName? isName
      exact Decides.congr (.fail _)
        (iff_of_false id fun free => free.1 (Sketch.stands_unwritten unwritten stands))
  | none =>
      have fresh : declared.name ∉ sketch.base := fun member =>
        find?_eq_none_iff.mp found (shows.mem_names_of_base member)
      simp only [Option.isSome_none, Bool.false_eq_true, if_false]
      split
      · next malformed =>
          refine Decides.congr (.fail _) (iff_of_false id fun good => ?_)
          simp [good.2.1, good.2.2] at malformed
      · next good =>
          have good : Text.stripBrackets? declared.name = none ∧ declared.name ≠ "" := by
            simpa using good
          have isKind : table.describedKind?
              (.declared { ClassInfo.empty with isInterface := declared.isInterface }) =
                some (.declared declared.outline) := rfl
          have pushed := shows.push
            ⟨declared.name, .declared { ClassInfo.empty with isInterface := declared.isInterface }⟩
            (sketch.declare declared) (find?_eq_none_iff.mp found) isKind
            (Sketch.nodup_base_declare shows.base fresh) rfl (by simp [Sketch.declare, unwritten])
            fun name description => Sketch.stands_declare_iff unwritten fresh
          exact ⟨fun _ => ⟨_, _, pushType_run _, pushed.1, pushed.2, typeName?_push _⟩,
            fun refused => absurd ⟨fresh, good⟩ refused⟩

structure Outlined (classes : List Class) (ids : List TypeId) (table : TypeTable) : Prop where
  shows : ∃ state, (∀ declared ∈ classes, state declared.name = declared.outline) ∧
    table.Shows ⟨classes, state, [], []⟩
  named : List.Forall₂ (fun declared id => table.typeName? id = some declared.name) classes ids

theorem nodup_baseNames_iff {classes : List Class} :
    (baseNames classes).Nodup ↔
      ∀ done declared rest, classes = done ++ declared :: rest →
        declared.name ∉ baseNames done := by
  have initial : (TypeTable.initial.types.map TypeInfo.name).Nodup := by decide
  have split : ∀ {done : List Class} {declared : Class}, declared.name ∉ baseNames done ↔
      declared.name ∉ TypeTable.initial.types.map TypeInfo.name ∧
        declared.name ∉ done.map Class.name := by
    intro done declared
    rw [baseNames, List.mem_append, not_or]
  simp only [split]
  rw [forall_split_and_iff, ← nodup_map_iff_split, baseNames, List.nodup_append]
  constructor
  · rintro ⟨_, distinct, apart⟩
    exact ⟨fun declared member isInitial =>
      apart _ isInitial _ (List.mem_map_of_mem member) rfl, distinct⟩
  · rintro ⟨apart, distinct⟩
    refine ⟨initial, distinct, fun name isInitial other member same => ?_⟩
    obtain ⟨declared, listed, rfl⟩ := List.mem_map.mp member
    exact apart declared listed (same ▸ isInitial)

private theorem declareClasses_decides (classes : List Class) :
    Decides (classes.mapM fun declared => declareClass declared.name declared.isInterface) initial
      ((∀ declared ∈ classes, Text.stripBrackets? declared.name = none ∧ declared.name ≠ "") ∧
        (baseNames classes).Nodup) fun ids after => Outlined classes ids after := by
  have each : ∀ done declared rest, classes = done ++ declared :: rest → ∀ ids table,
      Outlined done ids table →
      Decides (declareClass declared.name declared.isInterface) table
        ((Text.stripBrackets? declared.name = none ∧ declared.name ≠ "") ∧
          declared.name ∉ baseNames done)
        fun id after => Outlined (done ++ [declared]) (ids ++ [id]) after := by
    intro done declared rest _ ids table here
    obtain ⟨state, known, shows⟩ := here.shows
    refine ((declareClass_decides shows rfl declared).congr and_comm).mono fun id after last => ?_
    refine ⟨⟨_, fun other member => ?_, last.1⟩, ?_⟩
    · by_cases same : other.name = declared.name
      · have isLast : other = declared := by
          have distinct := last.1.base
          rw [Sketch.base, List.nodup_append] at distinct
          exact List.inj_on_of_nodup_map distinct.2.1 member (by simp [Sketch.declare]) same
        rw [isLast, Function.update_self]
      · rw [Function.update_of_ne same]
        refine known other ((List.mem_append.mp member).resolve_right fun isLast => same ?_)
        rw [List.mem_singleton.mp isLast]
    · exact List.rel_append (here.named.imp fun _ _ isName => last.2.1.names isName)
        (.cons last.2.2 .nil)
  refine (Decides.mapM Outlined each ⟨⟨fun _ => ⟨none, [], false, [], [], none⟩, by simp,
    initial_shows _⟩, .nil⟩).congr ?_
  rw [forall_split_and_iff, nodup_baseNames_iff]

/-! ## Completing the classes -/

structure Halfway (before after : Class → ClassDescription) (texts : Class → List String)
    (methods : Class → List (String × String)) (sketch : Sketch) (table : TypeTable)
    (done : List Class) (later : TypeTable) : Prop where
  shows : ∃ state, (∀ declared ∈ sketch.classes,
      (declared ∈ done → state declared.name = after declared) ∧
        (declared ∉ done → state declared.name = before declared)) ∧
    later.Shows ⟨sketch.classes, state, sketch.written ++ done.flatMap texts,
      sketch.methods ++ done.flatMap methods⟩
  stays : table.Stays later

namespace Halfway

variable {before after : Class → ClassDescription} {texts : Class → List String}
  {methods : Class → List (String × String)} {sketch : Sketch} {table later : TypeTable}
  {done : List Class}

private theorem start (shows : table.Shows sketch)
    (known : ∀ declared ∈ sketch.classes, sketch.state declared.name = before declared) :
    Halfway before after texts methods sketch table [] table :=
  ⟨⟨sketch.state, fun declared member => ⟨nofun, fun _ => known declared member⟩,
    by simpa using shows⟩, .refl table⟩

private theorem decides (here : Halfway before after texts methods sketch table done later)
    (same : ∀ declared, (before declared).isInterface = declared.isInterface ∧
      (after declared).isInterface = declared.isInterface)
    (distinct : (sketch.classes.map Class.name).Nodup) {declared : Class}
    (member : declared ∈ sketch.classes) (fresh : declared ∉ done) {body : TypeId → Build PUnit}
    {allowed : Prop} (completes : Completes sketch.classes declared body (before declared)
      (after declared) allowed (texts declared) (methods declared))
    {id : TypeId} (isName : later.typeName? id = some declared.name) :
    Decides (body id) later allowed fun _ last =>
      Halfway before after texts methods sketch table (done ++ [declared]) last := by
  obtain ⟨state, states, shows⟩ := here.shows
  have faithful : Sketch.Faithful ⟨sketch.classes, state, sketch.written ++ done.flatMap texts,
      sketch.methods ++ done.flatMap methods⟩ := by
    intro other listed
    show (state other.name).isInterface = other.isInterface
    by_cases isDone : other ∈ done
    · rw [(states other listed).1 isDone, (same other).2]
    · rw [(states other listed).2 isDone, (same other).1]
  refine (completes later _ id shows rfl faithful isName
    ((states declared member).2 fresh)).mono fun _ last here' => ?_
  refine ⟨⟨Function.update state declared.name (after declared), fun other listed => ?_, ?_⟩,
    here.stays.trans here'.2⟩
  · by_cases isName : other.name = declared.name
    · obtain rfl := List.inj_on_of_nodup_map distinct listed member isName
      simp
    · have different : other ≠ declared := fun isSame => isName (isSame ▸ rfl)
      simpa [Function.update_of_ne isName, different] using states other listed
  · simpa [Sketch.advance] using here'.1

end Halfway

/-- A pass over the classes takes what is known of each of them one step further. -/
theorem pass_decides {classes : List Class} {ids : List TypeId}
    {body : Class → TypeId → Build PUnit}
    {before after : Class → ClassDescription} {allowed : Class → Prop}
    {texts : Class → List String} {methods : Class → List (String × String)}
    (completes : ∀ declared ∈ classes, Completes classes declared (body declared)
      (before declared) (after declared) (allowed declared) (texts declared) (methods declared))
    (same : ∀ declared, (before declared).isInterface = declared.isInterface ∧
      (after declared).isInterface = declared.isInterface)
    {table : TypeTable} {sketch : Sketch} (shows : table.Shows sketch)
    (isClasses : sketch.classes = classes)
    (known : ∀ declared ∈ classes, sketch.state declared.name = before declared)
    (named : List.Forall₂ (fun declared id => table.typeName? id = some declared.name)
      classes ids) :
    Decides ((classes.zip ids).forM fun entry => body entry.1 entry.2) table
      (∀ declared ∈ classes, allowed declared) fun _ later =>
      (∃ state, (∀ declared ∈ classes, state declared.name = after declared) ∧
        later.Shows ⟨classes, state, sketch.written ++ classes.flatMap texts,
          sketch.methods ++ classes.flatMap methods⟩) ∧ table.Stays later := by
  subst isClasses
  have isZip : (sketch.classes.zip ids).map Prod.fst = sketch.classes :=
    List.map_fst_zip named.length_eq.le
  have distinct : (sketch.classes.map Class.name).Nodup := (List.nodup_append.mp shows.base).2.1
  have each : ∀ done (entry : Class × TypeId) rest, sketch.classes.zip ids = done ++ entry :: rest →
      ∀ later, Halfway before after texts methods sketch table (done.map Prod.fst) later →
      Decides (body entry.1 entry.2) later (allowed entry.1) fun _ last =>
        Halfway before after texts methods sketch table ((done ++ [entry]).map Prod.fst) last := by
    intro done entry rest split later here
    have isSplit : sketch.classes = done.map Prod.fst ++ entry.1 :: rest.map Prod.fst := by
      rw [← isZip, split, List.map_append, List.map_cons]
    have member : entry.1 ∈ sketch.classes := by simp [isSplit]
    have fresh : entry.1 ∉ done.map Prod.fst := fun earlier =>
      nodup_map_iff_split.mp distinct _ _ _ isSplit (List.mem_map_of_mem earlier)
    have isName : later.typeName? entry.2 = some entry.1.name := by
      refine here.stays.names (List.forall₂_iff_zip.mp named |>.2 ?_)
      rw [split]
      exact List.mem_append_right _ List.mem_cons_self
    rw [List.map_append]
    exact here.decides same distinct member fresh (completes entry.1 member) isName
  have whole := Decides.forM (fun done => Halfway before after texts methods sketch table
    (done.map Prod.fst)) each (.start shows known)
  refine (whole.mono fun _ later here => ?_).congr ?_
  · obtain ⟨state, states, shows'⟩ := here.shows
    rw [isZip] at states shows'
    exact ⟨⟨state, fun declared member => (states declared member).1 member, shows'⟩, here.stays⟩
  · refine forall_split_iff.trans ?_
    constructor
    · intro all declared member
      rw [← isZip] at member
      obtain ⟨entry, listed, rfl⟩ := List.mem_map.mp member
      exact all entry listed
    · intro all entry listed
      exact all entry.1 (isZip ▸ List.mem_map_of_mem listed)

/-- The table of a program is finished exactly if the program is acceptable. -/
theorem declareTypes_decides (program : Program) :
    Decides program.declareTypes initial program.Acceptable fun _ table =>
      ∃ state, (∀ declared ∈ program.classes,
        state declared.name = declared.withMembers declared.fields declared.methods) ∧
        table.Shows ⟨program.classes, state, program.texts, program.methodNames⟩ := by
  have later : ∀ ids table, Outlined program.classes ids table → Decides (do
      (program.classes.zip ids).forM fun entry => declareSupertypes entry.1 entry.2
      (program.classes.zip ids).forM fun entry => declareMembers entry.1 entry.2) table
      ((∀ declared ∈ program.classes,
        (∀ text ∈ declared.superclass, ClassNamed program.classes (Text.trim text) false) ∧
          ∀ text ∈ Text.splitList declared.interfaces,
            ∃ isInterface, ClassNamed program.classes (Text.trim text) isInterface) ∧
        ∀ declared ∈ program.classes,
          (∀ text ∈ declared.memberTexts, Text.Resolves (baseNames program.classes) text) ∧
            (declared.fields.map Field.name).Nodup ∧ (declared.methods.map Method.name).Nodup)
      fun _ last => ∃ state, (∀ declared ∈ program.classes,
        state declared.name = declared.withMembers declared.fields declared.methods) ∧
        last.Shows ⟨program.classes, state, program.texts, program.methodNames⟩ := by
    intro ids table outlined
    obtain ⟨state, known, shows⟩ := outlined.shows
    refine (pass_decides (fun declared member => Completes.supertypes member)
      (fun declared => ⟨rfl, rfl⟩) shows rfl known outlined.named).bind fun _ between here => ?_
    obtain ⟨⟨state', known', shows'⟩, stays⟩ := here
    refine (pass_decides (fun declared member => Completes.members member)
      (fun declared => ⟨rfl, rfl⟩) shows' rfl known'
      (outlined.named.imp fun _ _ isName => stays.names isName)).mono fun _ last here => ?_
    obtain ⟨⟨last, known'', shows''⟩, _⟩ := here
    refine ⟨last, known'', ?_⟩
    have none : program.classes.flatMap (fun _ => ([] : List (String × String))) = [] := by simp
    simpa [Program.texts, Program.methodNames, none] using shows''
  refine ((declareClasses_decides program.classes).bind later).congr ?_
  constructor
  · rintro ⟨⟨named, names⟩, supertypes, members⟩
    refine ⟨names, named, fun declared member => ?_⟩
    exact ⟨(supertypes declared member).1, (supertypes declared member).2,
      (members declared member).1, (members declared member).2.1, (members declared member).2.2⟩
  · intro acceptable
    refine ⟨⟨acceptable.named, acceptable.names⟩, fun declared member => ?_,
      fun declared member => ?_⟩
    · exact ⟨(acceptable.classes declared member).superclass,
        (acceptable.classes declared member).interfaces⟩
    · exact ⟨(acceptable.classes declared member).members,
        (acceptable.classes declared member).fields, (acceptable.classes declared member).methods⟩

end Declaration

/-! ## The finished hierarchy -/

namespace TypeTable

variable {table : TypeTable} {sketch : Sketch}

theorem stays_withDefaultSuperclass (table : TypeTable) :
    table.Stays table.withDefaultSuperclass := by
  refine ⟨fun {type name} isName => ?_, List.prefix_rfl, List.prefix_rfl⟩
  obtain ⟨info, isThere, rfl⟩ := exists_getElem?_of_typeName? isName
  rw [typeName?, getElem?_withDefaultSuperclass, isThere]
  rfl

theorem superclass_eq_none_iff {info : ClassInfo} {description : ClassDescription}
    (described : table.describedClass? info = some description) :
    info.superclass = none ↔ description.superclass = none := by
  have superclass := (describedClass?_eq_some.mp described).1
  cases isSuper : info.superclass with
  | none =>
      rw [isSuper] at superclass
      simpa using (Option.some.inj superclass).symm
  | some type =>
      rw [isSuper] at superclass
      obtain ⟨name, _, isName⟩ := Option.map_eq_some_iff.mp superclass
      simp [← isName]

private theorem superclass_of_initial {name : String} {description : ClassDescription}
    (found : initial.described? name = some (.declared description)) :
    name = "Object" ∨ description.superclass ≠ none := by
  have known : ∀ name ∈ initial.types.map TypeInfo.name,
      ∀ info ∈ (initial.described? name).bind TypeDescription.class?,
        name = "Object" ∨ info.superclass ≠ none := by decide
  refine known name (Sketch.mem_names_of_described? found) description ?_
  rw [found]
  rfl

end TypeTable

namespace Sketch

def defaulted (sketch : Sketch) : Sketch :=
  { sketch with state := fun name =>
      { sketch.state name with
        superclass := some ((sketch.state name).superclass.getD "Object") } }

private theorem Stands.defaulted {sketch : Sketch} {name : String} {description : TypeDescription}
    (stands : sketch.Stands name description)
    (other : ∀ info, description ≠ .declared info) :
    sketch.defaulted.Stands name description := by
  cases stands with
  | initial found => exact .initial found
  | declared => exact absurd rfl (other _)
  | array isWritten mentions isNew isArray => exact .array isWritten mentions isNew isArray

end Sketch

namespace TypeTable

variable {table : TypeTable} {sketch : Sketch}

private theorem Shows.described_class (shows : table.Shows sketch) {type : TypeId} {name : String}
    {info : ClassInfo} (isThere : table.types[type]? = some ⟨name, .declared info⟩)
    {description : TypeDescription}
    (described : table.describedKind? (.declared info) = some description)
    (stands : sketch.Stands name description) :
    ∃ description', table.withDefaultSuperclass.describedClass? (defaulted type info) =
      some description' ∧ sketch.defaulted.Stands name (.declared description') := by
  obtain ⟨known, isKnown, rfl⟩ := Option.map_eq_some_iff.mp described
  have stays := stays_withDefaultSuperclass table
  have isObject : table.typeName? objectType = some "Object" := shows.stays.names rfl
  have same := superclass_eq_none_iff isKnown
  generalize isDeclared : TypeDescription.declared known = answer at stands
  cases stands with
  | initial found =>
      subst isDeclared
      have unchanged : defaulted type info = info := by
        refine if_neg fun lacks => ?_
        rcases superclass_of_initial found with rfl | has
        · exact lacks.1 (typeName?_unique shows.names (typeName?_of_getElem? isThere) isObject)
        · exact has (same.mp lacks.2)
      rw [unchanged]
      exact ⟨known, stays.describedClass? isKnown, .initial found⟩
  | declared member isName =>
      cases isDeclared
      subst isName
      have other : type ≠ objectType := by
        rintro rfl
        have isName := typeName?_of_getElem? isThere
        rw [isObject] at isName
        refine (List.nodup_append.mp shows.base).2.2 "Object" (by decide) _
          (List.mem_map_of_mem member) (Option.some.inj isName)
      refine ⟨_, ?_, .declared member rfl⟩
      have before := describedClass?_eq_some.mp (stays.describedClass? isKnown)
      unfold defaulted
      split
      · next lacks =>
          rw [describedClass?_eq_some]
          refine ⟨?_, before.2⟩
          have isNone := same.mp lacks.2
          simp [Sketch.defaulted, isNone, stays.names isObject]
      · next has =>
          obtain ⟨name, isSuper⟩ : ∃ name, (sketch.state _).superclass = some name :=
            Option.ne_none_iff_exists'.mp fun none => has ⟨other, same.mpr none⟩
          rw [describedClass?_eq_some]
          refine ⟨?_, before.2⟩
          rw [before.1]
          simp [Sketch.defaulted, isSuper]
  | array => cases isDeclared

private theorem Shows.withDefaultSuperclass (shows : table.Shows sketch) :
    table.withDefaultSuperclass.Shows sketch.defaulted := by
  have stays := stays_withDefaultSuperclass table
  refine ⟨names_withDefaultSuperclass table ▸ shows.names, shows.base, shows.stays.trans stays,
    fun {type info} found => ?_, fun stands => ?_, shows.resolved,
    Stays.mapM (fun _ _ => stays.qualified?) shows.methods⟩
  · rw [getElem?_withDefaultSuperclass] at found
    obtain ⟨⟨name, kind⟩, isThere, rfl⟩ := Option.map_eq_some_iff.mp found
    obtain ⟨description, described, stands⟩ := shows.described isThere
    cases kind with
    | declared info =>
        obtain ⟨answer, isAnswer, here⟩ := shows.described_class isThere described stands
        refine ⟨.declared answer, ?_, here⟩
        simp [changed, describedKind?, isAnswer]
    | primitive type =>
        cases described
        exact ⟨_, rfl, stands.defaulted fun info same => by cases same⟩
    | array element =>
        refine ⟨description, stays.describedKind? described, stands.defaulted fun info same => ?_⟩
        obtain ⟨inner, _, rfl⟩ := Option.map_eq_some_iff.mp described
        cases same
  · rw [names_withDefaultSuperclass]
    cases stands with
    | initial found => exact shows.complete (.initial found)
    | declared member isName => exact shows.complete (.declared member isName)
    | array isWritten mentions isNew isArray =>
        exact shows.complete (.array isWritten mentions isNew isArray)

end TypeTable

namespace Declaration

/-- A program has a hierarchy exactly if it is acceptable. -/
theorem hierarchy_ok_iff {program : Program} :
    (∃ hierarchy, program.hierarchy = .ok hierarchy) ↔ program.Acceptable := by
  have decides := declareTypes_decides program
  unfold Program.hierarchy
  constructor
  · rintro ⟨hierarchy, built⟩
    by_contra refused
    obtain ⟨failure, after, run⟩ := decides.fails refused
    rw [run] at built
    cases built
  · intro acceptable
    obtain ⟨_, after, run, _⟩ := decides.succeeds acceptable
    exact ⟨after.build, by rw [run]⟩

/-- The hierarchy of a program shows what the classes of the program declare. -/
theorem hierarchy_shows {program : Program} {hierarchy : Hierarchy}
    (built : program.hierarchy = .ok hierarchy) :
    ∃ state, (∀ declared ∈ program.classes, state declared.name = declared.description) ∧
      hierarchy.table.Shows ⟨program.classes, state, program.texts, program.methodNames⟩ := by
  have acceptable := hierarchy_ok_iff.mp ⟨hierarchy, built⟩
  obtain ⟨_, table, run, state, known, shows⟩ := (declareTypes_decides program).succeeds acceptable
  unfold Program.hierarchy at built
  rw [run] at built
  cases built
  refine ⟨_, fun declared member => ?_, shows.withDefaultSuperclass⟩
  show ({ state declared.name with
    superclass := some ((state declared.name).superclass.getD "Object") } : ClassDescription) = _
  rw [known declared member]
  rfl

inductive Program.Describes (program : Program) : String → TypeDescription → Prop
  | initial {name : String} {description : TypeDescription}
      (isInitial : TypeTable.initial.described? name = some description) :
      Describes program name description
  | declared {declared : Class} (member : declared ∈ program.classes) :
      Describes program declared.name (.declared declared.description)
  | array {text name inner : String} (isWritten : text ∈ program.texts)
      (mentions : Text.Mentions (baseNames program.classes) text name)
      (isNew : name ∉ baseNames program.classes)
      (isArray : Text.stripBrackets? name = some inner) :
      Describes program name (.array (Text.trim inner))

theorem described?_hierarchy {program : Program} {hierarchy : Hierarchy}
    (built : program.hierarchy = .ok hierarchy) {name : String} {description : TypeDescription} :
    hierarchy.table.described? name = some description ↔ program.Describes name description := by
  obtain ⟨state, known, shows⟩ := hierarchy_shows built
  rw [shows.described?_eq_some_iff]
  constructor
  · intro stands
    cases stands with
    | initial found => exact .initial found
    | declared member isName =>
        subst isName
        simp only [known _ member]
        exact .declared member
    | array isWritten mentions isNew isArray => exact .array isWritten mentions isNew isArray
  · intro describes
    cases describes with
    | initial found => exact .initial found
    | declared member =>
        rw [← known _ member]
        exact .declared member rfl
    | array isWritten mentions isNew isArray => exact .array isWritten mentions isNew isArray

theorem exists_described? {program : Program} {hierarchy : Hierarchy}
    (built : program.hierarchy = .ok hierarchy) {type : TypeId} {name : String}
    (isName : hierarchy.typeName? type = some name) :
    ∃ description, hierarchy.table.described? name = some description := by
  obtain ⟨state, _, shows⟩ := hierarchy_shows built
  obtain ⟨_, description, _, _, stands⟩ := shows.stands_of_typeName? isName
  exact ⟨description, shows.described?_eq_some_iff.mpr stands⟩

end Declaration

end ObjectFlow
