import Mathlib.Data.Set.Finite.Basic
import ObjectFlow.Proofs.Hierarchy.Declared
import ObjectFlow.Proofs.Hierarchy.Inheritance

/-!
# Superclass chains

Field lookup, dispatch, the fields of an object and the initializers of a class
go up the superclass chain.  Nothing in an accepted program keeps the chain from
going round in a circle.  The walks end exactly if it does not, and then the
chain of every class leads to `Object`.
-/

namespace ObjectFlow

/-! ## Chains -/

section Chains

variable {α : Type} {next : α → Option α} {start : α}

def ChainEnds (next : α → Option α) (start : α) : Prop :=
  ∃ last, Relation.ReflTransGen (fun a b => next a = some b) start last ∧ next last = none

def ChainCircles (next : α → Option α) (start : α) : Prop :=
  ∃ turn, Relation.ReflTransGen (fun a b => next a = some b) start turn ∧
    Relation.TransGen (fun a b => next a = some b) turn turn

theorem ChainEnds.not_circles (ends : ChainEnds next start) : ¬ChainCircles next start := by
  have rightUnique : Relator.RightUnique fun a b => next a = some b := by
    intro a b c isNext isNext'
    exact Option.some.inj (isNext.symm.trans isNext')
  obtain ⟨last, path, isLast⟩ := ends
  rintro ⟨turn, toTurn, circle⟩
  have stays : ∀ {a}, Relation.ReflTransGen (fun a b => next a = some b) turn a →
      Relation.TransGen (fun a b => next a = some b) a a := by
    intro a path
    induction path with
    | refl => exact circle
    | tail _ isNext ih =>
        obtain ⟨_, isNext', back⟩ := Relation.TransGen.head'_iff.mp ih
        cases rightUnique isNext isNext'
        exact .tail' back isNext
  have isStuck : ∀ {a}, ¬Relation.TransGen (fun a b => next a = some b) last a := by
    intro a path
    obtain ⟨_, isNext, _⟩ := Relation.TransGen.head'_iff.mp path
    rw [isLast] at isNext
    cases isNext
  rcases Relation.ReflTransGen.total_of_right_unique rightUnique toTurn path with path | path
  · exact isStuck (stays path)
  · rcases Relation.reflTransGen_iff_eq_or_transGen.mp path with rfl | path
    · exact isStuck circle
    · exact isStuck path

private theorem chainEnds_of_not_circles (finite : {a | (next a).isSome}.Finite)
    (free : ¬ChainCircles next start) : ChainEnds next start := by
  let Inner := {a // (next a).isSome ∧ Relation.ReflTransGen (fun a b => next a = some b) start a}
  have : Finite Inner := (finite.subset fun a here => here.1).to_subtype
  let after (later earlier : Inner) :=
    Relation.TransGen (fun a b => next a = some b) earlier.1 later.1
  have : IsTrans Inner after := ⟨fun _ _ _ first second => second.trans first⟩
  have : Std.Irrefl after := ⟨fun inner circle => free ⟨inner.1, inner.2.2, circle⟩⟩
  have inward : ∀ inner : Inner, ChainEnds next inner.1 := by
    intro inner
    induction inner using (Finite.wellFounded_of_trans_of_irrefl after).induction with
    | _ inner ih =>
        obtain ⟨other, isNext⟩ := Option.isSome_iff_exists.mp inner.2.1
        cases isLast : next other with
        | none => exact ⟨other, .single isNext, isLast⟩
        | some _ =>
            obtain ⟨last, path, isLast⟩ :=
              ih ⟨other, by simp [isLast], inner.2.2.tail isNext⟩ (.single isNext)
            exact ⟨last, .head isNext path, isLast⟩
  cases isLast : next start with
  | none => exact ⟨start, .refl, isLast⟩
  | some _ => exact inward ⟨start, by simp [isLast], .refl⟩

end Chains

/-! ## Superclasses by name -/

private theorem TypeTable.superclass_of_described {table : TypeTable} {kind : TypeKind}
    {description : TypeDescription} (described : table.describedKind? kind = some description) :
    (kind.classInfo?.bind ClassInfo.superclass).mapM table.typeName? =
      some (description.class?.bind ClassDescription.superclass) := by
  cases kind with
  | primitive _ => cases described; rfl
  | array _ =>
      obtain ⟨_, _, rfl⟩ := Option.map_eq_some_iff.mp described
      rfl
  | declared info =>
      obtain ⟨_, here, rfl⟩ := Option.map_eq_some_iff.mp described
      exact (describedClass?_eq_some.mp here).1

namespace Declaration

def Program.superclass? (program : Program) (name : String) : Option String :=
  match program.classes.find? fun declared => declared.name = name with
  | some declared => some ((declared.superclass.map Text.trim).getD "Object")
  | none => if name = "Throwable" then some "Object" else none

/-- The superclasses of the class of a name go round in a circle. -/
def Program.Circles (program : Program) (name : String) : Prop :=
  ChainCircles program.superclass? name

variable {program : Program} {hierarchy : Hierarchy}

private theorem finite_superclass? (program : Program) :
    {name | (program.superclass? name).isSome}.Finite := by
  refine (List.finite_toSet ("Throwable" :: program.classes.map Class.name)).subset ?_
  intro name isSome
  simp only [Set.mem_ofPred_eq, Program.superclass?] at isSome
  cases found : program.classes.find? fun declared => declared.name = name with
  | some declared =>
      have isName : declared.name = name := by simpa using List.find?_some found
      exact List.mem_cons_of_mem _
        (isName ▸ List.mem_map_of_mem (List.mem_of_find?_eq_some found))
  | none =>
      rw [found] at isSome
      by_cases same : name = "Throwable"
      · exact same ▸ List.mem_cons_self
      · simp [same] at isSome

private theorem superclass?_of_mem (names : (program.classes.map Class.name).Nodup)
    {declared : Class} (member : declared ∈ program.classes) :
    program.superclass? declared.name = declared.description.superclass := by
  have found : program.classes.find? (fun other => other.name = declared.name) = some declared := by
    cases isOther : program.classes.find? fun other => other.name = declared.name with
    | none => simpa using List.find?_eq_none.mp isOther declared member
    | some other =>
        have same : other.name = declared.name := by simpa using List.find?_some isOther
        rw [List.inj_on_of_nodup_map names (List.mem_of_find?_eq_some isOther) member same]
  unfold Program.superclass?
  rw [found]
  rfl

theorem superclass?_of_notMem {name : String} (notMem : name ∉ program.classes.map Class.name) :
    program.superclass? name = if name = "Throwable" then some "Object" else none := by
  have missing : program.classes.find? (fun declared => declared.name = name) = none := by
    simpa using notMem
  unfold Program.superclass?
  rw [missing]

private theorem Program.Describes.superclass {name : String} {description : TypeDescription}
    (acceptable : program.Acceptable) (describes : program.Describes name description) :
    description.class?.bind ClassDescription.superclass = program.superclass? name := by
  obtain ⟨_, distinct, apart⟩ := List.nodup_append.mp acceptable.names
  cases describes with
  | initial found =>
      have isInitial := Sketch.mem_names_of_described? found
      have notMem : name ∉ program.classes.map Class.name := fun member =>
        apart name isInitial name member rfl
      have known : ∀ name ∈ TypeTable.initial.types.map TypeInfo.name,
          ((TypeTable.initial.described? name).bind TypeDescription.class?).bind
            ClassDescription.superclass = if name = "Throwable" then some "Object" else none := by
        decide
      rw [superclass?_of_notMem notMem, ← known name isInitial, found]
      rfl
  | declared member => exact (superclass?_of_mem distinct member).symm
  | array _ _ isNew _ =>
      have notMem : name ∉ program.classes.map Class.name := fun member =>
        isNew (List.mem_append_right _ member)
      have other : name ≠ "Throwable" := by
        rintro rfl
        exact isNew (List.mem_append_left _ (by decide))
      rw [superclass?_of_notMem notMem, if_neg other]
      rfl

theorem superclass?_hierarchy (built : program.hierarchy = .ok hierarchy) {type : TypeId}
    {name : String} (isName : hierarchy.typeName? type = some name) :
    (hierarchy.superclass? type).mapM hierarchy.typeName? = some (program.superclass? name) := by
  obtain ⟨_, _, shows⟩ := hierarchy_shows built
  obtain ⟨kind, description, isKind, described, isAnswer⟩ := shows.exists_kind? isName
  have acceptable := hierarchy_ok_iff.mp ⟨hierarchy, built⟩
  rw [← ((described?_hierarchy built).mp isAnswer).superclass acceptable,
    ← TypeTable.superclass_of_described described]
  simp [Hierarchy.superclass?, TypeTable.classInfo?, isKind]
  rfl

section Names

variable (built : program.hierarchy = .ok hierarchy)

include built

theorem superclass?_named {type sup : TypeId} {name : String}
    (isName : hierarchy.typeName? type = some name)
    (isSuper : hierarchy.superclass? type = some sup) :
    ∃ next, hierarchy.typeName? sup = some next ∧ program.superclass? name = some next := by
  have same := superclass?_hierarchy built isName
  rw [isSuper] at same
  obtain ⟨next, isNext, isAnswer⟩ := Option.map_eq_some_iff.mp same
  exact ⟨next, isNext, isAnswer.symm⟩

theorem superclass?_of_named {type : TypeId} {name next : String}
    (isName : hierarchy.typeName? type = some name)
    (isSuper : program.superclass? name = some next) :
    ∃ sup, hierarchy.superclass? type = some sup ∧ hierarchy.typeName? sup = some next := by
  have same := superclass?_hierarchy built isName
  rw [isSuper] at same
  cases isSup : hierarchy.superclass? type with
  | none => rw [isSup] at same; cases same
  | some sup =>
      rw [isSup] at same
      obtain ⟨_, isNext, isAnswer⟩ := Option.map_eq_some_iff.mp same
      cases isAnswer
      exact ⟨sup, rfl, isNext⟩

theorem superclass?_eq_none_iff {type : TypeId} {name : String}
    (isName : hierarchy.typeName? type = some name) :
    hierarchy.superclass? type = none ↔ program.superclass? name = none := by
  simp only [Option.eq_none_iff_forall_ne_some]
  constructor
  · intro isLast next isNext
    obtain ⟨sup, isSuper, _⟩ := superclass?_of_named built isName isNext
    exact isLast sup isSuper
  · intro isLast sup isSuper
    obtain ⟨next, _, isNext⟩ := superclass?_named built isName isSuper
    exact isLast next isNext

/-- A chain of a hierarchy ends exactly if the names of the program do not go round in a circle. -/
theorem chainEnds_hierarchy_iff {type : TypeId} {name : String}
    (isName : hierarchy.typeName? type = some name) :
    ChainEnds hierarchy.superclass? type ↔ ¬program.Circles name := by
  constructor
  · rintro ⟨last, path, isLast⟩
    obtain ⟨lastName, isLastName, path⟩ :=
      TypeTable.exists_path_named (superclass?_named built) isName path
    have isTop := (superclass?_eq_none_iff built isLastName).mp isLast
    exact ChainEnds.not_circles ⟨lastName, path, isTop⟩
  · intro free
    obtain ⟨lastName, path, isLast⟩ := chainEnds_of_not_circles (finite_superclass? program) free
    obtain ⟨last, path, isLastName⟩ :=
      TypeTable.exists_path_of_named (superclass?_of_named built) isName path
    exact ⟨last, path, (superclass?_eq_none_iff built isLastName).mpr isLast⟩

end Names

/-! ## The last superclass -/

def Program.NamesClass (program : Program) (name : String) : Prop :=
  name ∈ ["Object", "Throwable"] ∨ name ∈ program.classes.map Class.name

private theorem namesClass_of_classInfo? (built : program.hierarchy = .ok hierarchy) {type : TypeId}
    {name : String} (isName : hierarchy.typeName? type = some name)
    (isClass : (hierarchy.table.classInfo? type).isSome) : program.NamesClass name := by
  obtain ⟨_, _, shows⟩ := hierarchy_shows built
  obtain ⟨kind, description, isKind, described, isAnswer⟩ := shows.exists_kind? isName
  obtain ⟨info, isInfo⟩ := Option.isSome_iff_exists.mp isClass
  cases isKind.symm.trans (TypeTable.kind?_of_classInfo? isInfo)
  obtain ⟨_, _, rfl⟩ := Option.map_eq_some_iff.mp described
  generalize isDeclared : TypeDescription.declared _ = answer at isAnswer
  cases (described?_hierarchy built).mp isAnswer with
  | initial found =>
      subst isDeclared
      have known : ∀ name ∈ TypeTable.initial.types.map TypeInfo.name,
          ((TypeTable.initial.described? name).bind TypeDescription.class?).isSome →
            name ∈ ["Object", "Throwable"] := by decide
      exact .inl (known name (Sketch.mem_names_of_described? found) (by rw [found]; rfl))
  | declared member => exact .inr (List.mem_map_of_mem member)
  | array => cases isDeclared

private theorem namesClass_superclass? (acceptable : program.Acceptable) {name next : String}
    (isSuper : program.superclass? name = some next) : program.NamesClass next := by
  unfold Program.superclass? at isSuper
  split at isSuper
  · next declared found =>
      have member := List.mem_of_find?_eq_some found
      cases Option.some.inj isSuper
      cases isText : declared.superclass with
      | none => exact .inl List.mem_cons_self
      | some text =>
          rcases (acceptable.classes declared member).superclass text isText with
            ⟨isInitial, _⟩ | ⟨other, member, isName, _⟩
          · exact .inl isInitial
          · exact .inr (List.mem_map.mpr ⟨other, member, isName⟩)
  · split at isSuper
    · cases isSuper
      exact .inl List.mem_cons_self
    · cases isSuper

theorem superclass?_object (acceptable : program.Acceptable) :
    program.superclass? "Object" = none := by
  have notMem : "Object" ∉ program.classes.map Class.name := fun member =>
    (List.nodup_append.mp acceptable.names).2.2 "Object" (by decide) "Object" member rfl
  rw [superclass?_of_notMem notMem, if_neg (by decide)]

private theorem eq_object_of_superclass?_eq_none {name : String} (named : program.NamesClass name)
    (isLast : program.superclass? name = none) : name = "Object" := by
  unfold Program.superclass? at isLast
  split at isLast
  · cases isLast
  · next missing =>
      split at isLast
      · cases isLast
      · next other =>
          rcases named with isInitial | member
          · simpa [other] using isInitial
          · obtain ⟨declared, listed, isName⟩ := List.mem_map.mp member
            simpa [isName] using List.find?_eq_none.mp missing declared listed

theorem above_objectType_iff (built : program.hierarchy = .ok hierarchy) {type : TypeId}
    {name : String} (isName : hierarchy.typeName? type = some name)
    (isClass : (hierarchy.table.classInfo? type).isSome) :
    hierarchy.Above type TypeTable.objectType ↔ ¬program.Circles name := by
  have acceptable := hierarchy_ok_iff.mp ⟨hierarchy, built⟩
  obtain ⟨_, _, shows⟩ := hierarchy_shows built
  have isObject : hierarchy.typeName? TypeTable.objectType = some "Object" :=
    shows.stays.names rfl
  rw [← chainEnds_hierarchy_iff built isName]
  constructor
  · intro above
    exact ⟨_, above,
      (superclass?_eq_none_iff built isObject).mpr (superclass?_object acceptable)⟩
  · rintro ⟨last, path, isLast⟩
    obtain ⟨lastName, isLastName, names⟩ :=
      TypeTable.exists_path_named (superclass?_named built) isName path
    have named : program.NamesClass lastName := by
      cases names with
      | refl => exact namesClass_of_classInfo? built isName isClass
      | tail _ isNext => exact namesClass_superclass? acceptable isNext
    have noNext := (superclass?_eq_none_iff built isLastName).mp isLast
    rw [eq_object_of_superclass?_eq_none named noNext] at isLastName
    rw [TypeTable.typeName?_unique shows.names isObject isLastName]
    exact path

end Declaration

namespace Hierarchy

/-! ## Walks up a chain -/

section Walks

variable {hierarchy : Hierarchy} {α : Type} {visit : ClassInfo → Option α}

/-- A walk visits a class and its superclasses until a visit has an answer or there is no class
left.  It visits the listed classes, and nothing but that bounds it. -/
inductive Walks (hierarchy : Hierarchy) {α : Type} (visit : ClassInfo → Option α) :
    TypeId → List ClassInfo → Option α → Prop
  | outside {type : TypeId} (noClass : hierarchy.table.classInfo? type = none) :
      Walks hierarchy visit type [] none
  | found {type : TypeId} {info : ClassInfo} {answer : α}
      (isClass : hierarchy.table.classInfo? type = some info) (isFound : visit info = some answer) :
      Walks hierarchy visit type [info] (some answer)
  | top {type : TypeId} {info : ClassInfo} (isClass : hierarchy.table.classInfo? type = some info)
      (missed : visit info = none) (isTop : info.superclass = none) :
      Walks hierarchy visit type [info] none
  | up {type sup : TypeId} {info : ClassInfo} {visited : List ClassInfo} {answer : Option α}
      (isClass : hierarchy.table.classInfo? type = some info) (missed : visit info = none)
      (isSuper : info.superclass = some sup) (walks : Walks hierarchy visit sup visited answer) :
      Walks hierarchy visit type (info :: visited) answer

private theorem lineageWithin_prefix {steps more : Nat} (le : steps ≤ more) (type : TypeId) :
    hierarchy.lineageWithin steps type <+: hierarchy.lineageWithin more type := by
  induction steps generalizing type more with
  | zero => exact List.nil_prefix
  | succ steps ih =>
      obtain ⟨more, rfl⟩ := Nat.exists_eq_succ_of_ne_zero (Nat.ne_of_gt (Nat.zero_lt_of_lt le))
      unfold lineageWithin
      cases hierarchy.table.classInfo? type with
      | none => exact List.prefix_rfl
      | some info =>
          cases isSuper : info.superclass with
          | none => simp [isSuper]
          | some sup =>
              simp only [isSuper]
              exact List.prefix_cons_inj info |>.mpr (ih (Nat.le_of_succ_le_succ le) sup)

namespace Walks

variable {type : TypeId} {visited other : List ClassInfo} {answer answer' : Option α}

private theorem unique (walks : hierarchy.Walks visit type visited answer)
    (walks' : hierarchy.Walks visit type other answer') : visited = other ∧ answer = answer' := by
  induction walks generalizing other answer' with
  | outside noClass => cases walks' <;> simp_all
  | found isClass isFound => cases walks' <;> simp_all
  | top isClass missed isTop => cases walks' <;> simp_all
  | up isClass missed isSuper _ ih =>
      cases walks' with
      | outside noClass => simp_all
      | found isClass' isFound => simp_all
      | top isClass' missed' isTop => simp_all
      | up isClass' missed' isSuper' walks' =>
          cases isClass.symm.trans isClass'
          cases isSuper.symm.trans isSuper'
          obtain ⟨rfl, rfl⟩ := ih walks'
          exact ⟨rfl, rfl⟩

theorem eq_lineageWithin (walks : hierarchy.Walks visit type visited answer) :
    visited = hierarchy.lineageWithin visited.length type := by
  induction walks with
  | outside _ => rfl
  | found isClass _ =>
      simp only [List.length_singleton, lineageWithin, isClass]
      split <;> rfl
  | top isClass _ isTop => simp [lineageWithin, isClass, isTop]
  | up isClass _ isSuper _ ih =>
      simp only [List.length_cons, lineageWithin, isClass, isSuper]
      rw [← ih]

theorem findSome? (walks : hierarchy.Walks visit type visited answer) :
    visited.findSome? visit = answer := by
  induction walks with
  | outside _ => rfl
  | found _ isFound => simp [isFound]
  | top _ missed _ => simp [missed]
  | up _ missed _ _ ih => simp [missed, ih]

private theorem lineageWithin_prefix (walks : hierarchy.Walks visit type visited answer)
    (isNone : answer = none) (steps : Nat) : hierarchy.lineageWithin steps type <+: visited := by
  induction walks generalizing steps with
  | outside noClass =>
      cases steps with
      | zero => exact List.prefix_rfl
      | succ steps => simp [lineageWithin, noClass]
  | found _ _ => cases isNone
  | top isClass _ isTop =>
      cases steps with
      | zero => exact List.nil_prefix
      | succ steps => simp [lineageWithin, isClass, isTop]
  | up isClass _ isSuper _ ih =>
      cases steps with
      | zero => exact List.nil_prefix
      | succ steps =>
          simp only [lineageWithin, isClass, isSuper]
          exact (List.prefix_cons_inj _).mpr (ih isNone steps)

private theorem exists_ids (walks : hierarchy.Walks visit type visited answer) :
    ∃ ids : List TypeId, ids.length = visited.length ∧ ids.Nodup ∧
      ∀ id ∈ ids, id < hierarchy.table.types.length ∧
        ∃ left answer, hierarchy.Walks visit id left answer ∧ left.length ≤ visited.length := by
  have one : ∀ {type : TypeId} {info : ClassInfo} {answer : Option α},
      hierarchy.table.classInfo? type = some info → hierarchy.Walks visit type [info] answer →
      ∃ ids : List TypeId, ids.length = [info].length ∧ ids.Nodup ∧
        ∀ id ∈ ids, id < hierarchy.table.types.length ∧
          ∃ left answer, hierarchy.Walks visit id left answer ∧ left.length ≤ [info].length := by
    intro type info answer isClass walks
    refine ⟨[type], rfl, List.nodup_singleton type, fun id member => ?_⟩
    rw [List.mem_singleton.mp member]
    exact ⟨TypeTable.lt_length_of_classInfo? isClass, _, _, walks, Nat.le_refl _⟩
  induction walks with
  | outside _ => exact ⟨[], rfl, List.nodup_nil, by simp⟩
  | found isClass isFound => exact one isClass (.found isClass isFound)
  | top isClass missed isTop => exact one isClass (.top isClass missed isTop)
  | @up type sup info visited answer isClass missed isSuper walks ih =>
      obtain ⟨ids, length, distinct, known⟩ := ih
      have here : hierarchy.Walks visit type (info :: visited) answer :=
        .up isClass missed isSuper walks
      refine ⟨type :: ids, by simp [length], List.nodup_cons.mpr ⟨fun member => ?_, distinct⟩, ?_⟩
      · obtain ⟨_, left, _, again, shorter⟩ := known type member
        rw [← (here.unique again).1, List.length_cons] at shorter
        omega
      · intro id member
        rcases List.mem_cons.mp member with rfl | member
        · exact ⟨TypeTable.lt_length_of_classInfo? isClass, _, _, here, Nat.le_refl _⟩
        · obtain ⟨below, left, _, again, shorter⟩ := known id member
          exact ⟨below, left, _, again, by simp; omega⟩

theorem length_le (walks : hierarchy.Walks visit type visited answer) :
    visited.length ≤ hierarchy.table.types.length := by
  obtain ⟨ids, length, distinct, known⟩ := walks.exists_ids
  have within : ids ⊆ List.range hierarchy.table.types.length := fun id member =>
    List.mem_range.mpr (known id member).1
  have bound := (List.subperm_of_subset distinct within).length_le
  rwa [length, List.length_range] at bound

/-- A walk that ends visits classes of the lineage, and its answer is the first one there. -/
theorem spec (walks : hierarchy.Walks visit type visited answer) :
    visited <+: hierarchy.lineage type ∧ (hierarchy.lineage type).findSome? visit = answer ∧
      (answer = none → visited = hierarchy.lineage type) := by
  have within : visited <+: hierarchy.lineage type := by
    conv_lhs => rw [walks.eq_lineageWithin]
    exact Hierarchy.lineageWithin_prefix walks.length_le type
  have complete : answer = none → visited = hierarchy.lineage type := fun isNone =>
    within.eq_of_length_le (walks.lineageWithin_prefix isNone _).length_le
  refine ⟨within, ?_, complete⟩
  cases answer with
  | none => rw [← complete rfl, walks.findSome?]
  | some value =>
      obtain ⟨more, same⟩ := within
      rw [← same, List.findSome?_append, walks.findSome?]
      rfl

end Walks

private theorem exists_walks_of_above {type sup : TypeId} (above : hierarchy.Above type sup)
    (ends : ∃ visited answer, hierarchy.Walks visit sup visited answer) :
    ∃ visited answer, hierarchy.Walks visit type visited answer := by
  induction above using Relation.ReflTransGen.head_induction_on with
  | refl => exact ends
  | head isSuper _ ih =>
      obtain ⟨info, isClass, isSuper⟩ := Option.bind_eq_some_iff.mp isSuper
      obtain ⟨visited, answer, walks⟩ := ih
      cases isFound : visit info with
      | some value => exact ⟨_, _, .found isClass isFound⟩
      | none => exact ⟨_, _, .up isClass isFound isSuper walks⟩

/-- A walk ends if the chain does, or if some visit on the way has an answer. -/
theorem exists_walks_iff {type : TypeId} :
    (∃ visited answer, hierarchy.Walks visit type visited answer) ↔
      ChainEnds hierarchy.superclass? type ∨
        ∃ info ∈ hierarchy.lineage type, (visit info).isSome := by
  constructor
  · rintro ⟨visited, answer, walks⟩
    induction walks with
    | outside noClass => exact .inl ⟨_, .refl, by simp [superclass?, noClass]⟩
    | found isClass isFound => exact .inr ⟨_, mem_lineage .refl isClass, by simp [isFound]⟩
    | top isClass _ isTop => exact .inl ⟨_, .refl, by simp [superclass?, isClass, isTop]⟩
    | up isClass _ isSuper _ ih =>
        have isNext : hierarchy.superclass? _ = some _ :=
          Option.bind_eq_some_iff.mpr ⟨_, isClass, isSuper⟩
        rcases ih with ⟨last, path, isLast⟩ | ⟨info, member, isSome⟩
        · exact .inl ⟨last, .head isNext path, isLast⟩
        · obtain ⟨_, sup, _, isInfo, above⟩ := mem_lineageWithin member
          exact .inr ⟨info, mem_lineage (.head isNext above) isInfo, isSome⟩
  · rintro (⟨last, path, isLast⟩ | ⟨info, member, isSome⟩)
    · refine exists_walks_of_above path ?_
      cases isClass : hierarchy.table.classInfo? last with
      | none => exact ⟨_, _, .outside isClass⟩
      | some info =>
          have isTop : info.superclass = none := by simpa [superclass?, isClass] using isLast
          cases isFound : visit info with
          | some value => exact ⟨_, _, .found isClass isFound⟩
          | none => exact ⟨_, _, .top isClass isFound isTop⟩
    · obtain ⟨_, sup, _, isInfo, above⟩ := mem_lineageWithin member
      obtain ⟨value, isFound⟩ := Option.isSome_iff_exists.mp isSome
      exact exists_walks_of_above above ⟨_, _, .found isInfo isFound⟩

end Walks

/-! ## Queries -/

variable {hierarchy : Hierarchy}

def ownField? (hierarchy : Hierarchy) (name : String) (info : ClassInfo) : Option FieldId :=
  info.fields.find? fun id => (hierarchy.field? id).any (·.name = name)

def ownImplementation? (hierarchy : Hierarchy) (selector : Selector) (info : ClassInfo) :
    Option MethodId :=
  info.methods.find? fun id => (hierarchy.method? id).any (·.implements selector)

def dispatchType (hierarchy : Hierarchy) (type : TypeId) : TypeId :=
  if hierarchy.isArray? type = some true then TypeTable.objectType else type

/-- What the queries about a type answer, walks find out that end. -/
structure QueriesEnd (hierarchy : Hierarchy) (type : TypeId) : Prop where
  field : ∀ name, ∃ visited answer,
    hierarchy.Walks (hierarchy.ownField? name) type visited answer ∧
      (hierarchy.lookupField type name).toOption = answer
  implementation : ∀ selector, ∃ visited answer,
    hierarchy.Walks (hierarchy.ownImplementation? selector) (hierarchy.dispatchType type) visited
        answer ∧ hierarchy.resolveMethod? type selector = some answer
  all : ∃ visited, hierarchy.Walks (fun _ => (none : Option Unit)) type visited none ∧
    hierarchy.instanceFields? type = some (visited.flatMap fun info =>
      info.fields.filter fun id => (hierarchy.field? id).any (!·.isStatic)) ∧
    hierarchy.classInitializersFor? type =
      some (visited.filterMap ClassInfo.classInitializer).reverse

private theorem toOption_lookupField {type : TypeId} {typeName : String}
    (isName : hierarchy.typeName? type = some typeName) (name : String) :
    (hierarchy.lookupField type name).toOption =
      (hierarchy.lineage type).findSome? (hierarchy.ownField? name) := by
  unfold lookupField
  rw [isName]
  cases isFound : (hierarchy.lineage type).findSome? (hierarchy.ownField? name) with
  | none =>
      unfold ownField? at isFound
      simp only [inRange, pure_bind, isFound]
      rfl
  | some id =>
      unfold ownField? at isFound
      simp only [inRange, pure_bind, isFound]
      rfl

private theorem lineage_of_primitive {type : TypeId}
    (noClass : hierarchy.table.classInfo? type = none) : hierarchy.lineage type = [] := by
  unfold lineage
  cases hierarchy.table.types.length with
  | zero => rfl
  | succ steps => simp [lineageWithin, noClass]

theorem resolveMethod?_eq {type : TypeId} {kind : TypeKind}
    (isKind : hierarchy.kind? type = some kind) (selector : Selector) :
    hierarchy.resolveMethod? type selector =
      some ((hierarchy.lineage (hierarchy.dispatchType type)).findSome?
        (hierarchy.ownImplementation? selector)) := by
  unfold resolveMethod? dispatchType isArray?
  rw [isKind]
  cases kind with
  | array _ => rfl
  | declared _ => rfl
  | primitive _ =>
      have noClass : hierarchy.table.classInfo? type = none := by
        simp [TypeTable.classInfo?, show hierarchy.table.kind? type = _ from isKind,
          TypeKind.classInfo?]
      simp [lineage_of_primitive noClass, TypeKind.isArray]

theorem chainEnds_dispatchType {type : TypeId}
    (root : hierarchy.superclass? TypeTable.objectType = none)
    (ends : ChainEnds hierarchy.superclass? type) :
    ChainEnds hierarchy.superclass? (hierarchy.dispatchType type) := by
  unfold dispatchType
  split
  · exact ⟨_, .refl, root⟩
  · exact ends

theorem queriesEnd_iff {type : TypeId} {typeName : String}
    (isName : hierarchy.typeName? type = some typeName)
    (root : hierarchy.superclass? TypeTable.objectType = none) :
    hierarchy.QueriesEnd type ↔ ChainEnds hierarchy.superclass? type := by
  constructor
  · intro ends
    obtain ⟨visited, walks, _⟩ := ends.all
    rcases exists_walks_iff.mp ⟨_, _, walks⟩ with ends | ⟨_, _, isSome⟩
    · exact ends
    · cases isSome
  · intro ends
    obtain ⟨info, isThere, _⟩ := TypeTable.exists_getElem?_of_typeName? isName
    have isKind : hierarchy.kind? type = some info.kind := by
      rw [kind?, TypeTable.kind?, isThere, Option.map_some]
    have dispatchEnds := chainEnds_dispatchType root ends
    refine ⟨fun name => ?_, fun selector => ?_, ?_⟩
    · obtain ⟨visited, answer, walks⟩ := exists_walks_iff.mpr (.inl ends)
      exact ⟨visited, answer, walks, (toOption_lookupField isName name).trans walks.spec.2.1⟩
    · obtain ⟨visited, answer, walks⟩ := exists_walks_iff.mpr (.inl dispatchEnds)
      refine ⟨visited, answer, walks, ?_⟩
      rw [resolveMethod?_eq isKind, walks.spec.2.1]
    · have full : ∃ visited answer,
          hierarchy.Walks (fun _ => (none : Option Unit)) type visited answer :=
        exists_walks_iff.mpr (.inl ends)
      obtain ⟨visited, answer, walks⟩ := full
      obtain rfl : answer = none := by
        rw [← walks.findSome?]
        simp
      refine ⟨visited, walks, ?_, ?_⟩
      · unfold instanceFields?
        rw [isKind, walks.spec.2.2 rfl]
        rfl
      · unfold classInitializersFor?
        rw [isKind, walks.spec.2.2 rfl]
        rfl

end Hierarchy

namespace Declaration

/-- The superclasses of a class of an accepted program lead to `Object`, and the queries about a
type end, unless they go round in a circle.  Then a walk ends only where a visit has an answer. -/
theorem superclass_chains_end {program : Program} {hierarchy : Hierarchy}
    (built : program.hierarchy = .ok hierarchy) {type : TypeId} {name : String}
    (isName : hierarchy.typeName? type = some name) :
    ((hierarchy.table.classInfo? type).isSome →
      (hierarchy.Above type TypeTable.objectType ↔ ¬program.Circles name)) ∧
    (hierarchy.QueriesEnd type ↔ ¬program.Circles name) ∧
    ∀ {α : Type} (visit : ClassInfo → Option α),
      ((∃ visited answer, hierarchy.Walks visit type visited answer) ↔
        ¬program.Circles name ∨ ∃ info ∈ hierarchy.lineage type, (visit info).isSome) ∧
      ∀ visited answer, hierarchy.Walks visit type visited answer →
        visited.length ≤ hierarchy.table.types.length ∧
          (hierarchy.lineage type).findSome? visit = answer := by
  obtain ⟨_, _, shows⟩ := hierarchy_shows built
  have root : hierarchy.superclass? TypeTable.objectType = none :=
    (superclass?_eq_none_iff built (shows.stays.names rfl)).mpr
      (superclass?_object (hierarchy_ok_iff.mp ⟨hierarchy, built⟩))
  have ends := chainEnds_hierarchy_iff built isName
  refine ⟨above_objectType_iff built isName, ?_, fun visit => ⟨?_, fun visited answer walks => ?_⟩⟩
  · rw [Hierarchy.queriesEnd_iff isName root, ends]
  · rw [Hierarchy.exists_walks_iff, ends]
  · exact ⟨walks.length_le, walks.spec.2.1⟩

def layeredClasses : Program :=
  ⟨"Low.run",
    [⟨"Low", some " Middle ", none, false, [.method ⟨"<clinit>", none, true, false, false, []⟩]⟩,
      ⟨"Middle", some "High", none, false, [.field ⟨"next", "Low[]", false⟩]⟩,
      ⟨"High", none, none, false, []⟩]⟩

theorem superclass_chains_end_layered : ∃ hierarchy, layeredClasses.hierarchy = .ok hierarchy ∧
    hierarchy.typeName? 10 = some "Low" ∧ hierarchy.Above 10 TypeTable.objectType ∧
    hierarchy.QueriesEnd 10 := by
  have facts : layeredClasses.hierarchy.toOption.map (fun hierarchy =>
      (hierarchy.typeName? 10, (hierarchy.table.classInfo? 10).isSome)) =
      some (some "Low", true) := by decide +kernel
  obtain ⟨hierarchy, isHierarchy, known⟩ := Option.map_eq_some_iff.mp facts
  obtain ⟨isName, isClass⟩ := Prod.mk.inj known
  have built := toOption_eq_some.mp isHierarchy
  have path : Relation.ReflTransGen (fun a b => layeredClasses.superclass? a = some b) "Low"
      "Object" :=
    .head (b := "Middle") (by decide +kernel) (.head (b := "High") (by decide +kernel)
      (.single (by decide +kernel)))
  have free : ¬layeredClasses.Circles "Low" :=
    ChainEnds.not_circles ⟨"Object", path, by decide +kernel⟩
  have ends := superclass_chains_end built isName
  exact ⟨hierarchy, built, isName, (ends.1 isClass).mpr free, ends.2.1.mpr free⟩

def circularClasses : Program :=
  ⟨"A.run", [⟨"A", some "B", none, false, []⟩, ⟨"B", some "A", none, false, []⟩]⟩

theorem superclass_chains_circular : ∃ hierarchy, circularClasses.hierarchy = .ok hierarchy ∧
    hierarchy.typeName? 10 = some "A" ∧ hierarchy.superclass? 10 = some 11 ∧
    hierarchy.superclass? 11 = some 10 ∧ ¬hierarchy.Above 10 TypeTable.objectType ∧
    ¬∃ visited answer, hierarchy.Walks (hierarchy.ownField? "next") 10 visited answer := by
  have facts : circularClasses.hierarchy.toOption.map (fun hierarchy =>
      ((hierarchy.typeName? 10, hierarchy.superclass? 10, hierarchy.superclass? 11),
        hierarchy.superclass? TypeTable.objectType,
        (hierarchy.lineage 10).any fun info => (hierarchy.ownField? "next" info).isSome)) =
      some ((some "A", some 11, some 10), none, false) := by decide +kernel
  obtain ⟨hierarchy, isHierarchy, known⟩ := Option.map_eq_some_iff.mp facts
  simp only [Prod.mk.injEq] at known
  obtain ⟨⟨isName, first, second⟩, root, missed⟩ := known
  have circles : ChainCircles hierarchy.superclass? 10 := ⟨10, .refl, .tail (.single first) second⟩
  refine ⟨hierarchy, toOption_eq_some.mp isHierarchy, isName, first, second, fun above => ?_, ?_⟩
  · exact ChainEnds.not_circles ⟨_, above, root⟩ circles
  · rw [Hierarchy.exists_walks_iff]
    rintro (ends | ⟨info, member, isSome⟩)
    · exact ends.not_circles circles
    · rw [List.any_eq_false] at missed
      exact missed info member isSome

end Declaration

end ObjectFlow
