import Mathlib.Logic.Relation
import ObjectFlow.Proofs.Hierarchy.Linking

/-!
# Sequences of builder operations

A builder is asked to declare classes, to attach superclasses and interfaces,
to add members and to resolve names, in any order and with any ids.  Whatever
an operation answers, it takes its table on by a few kinds of steps.  They keep
a table grounded: what a class extends or implements is a class, and an array
type comes after that of its elements.
-/

namespace ObjectFlow

namespace TypeTable

open Effect

/-- What can be asked of a builder. -/
inductive Operation where
  | declareClass (name : String) (isInterface : Bool)
  | setSuperclass (type superclass : TypeId)
  | addInterface (type interface : TypeId)
  | addField (declaring : TypeId) (name : String) (type : TypeId) (isStatic : Bool)
  | addMethod (method : Method)
  | resolveType (name : String)
  deriving DecidableEq, Repr

def Operation.run : Operation → Build Unit
  | .declareClass name isInterface => do let _ ← TypeTable.declareClass name isInterface
  | .setSuperclass type superclass => TypeTable.setSuperclass type superclass
  | .addInterface type interface => TypeTable.addInterface type interface
  | .addField declaring name type isStatic => do
      let _ ← TypeTable.addField declaring name type isStatic
  | .addMethod method => do let _ ← TypeTable.addMethod method
  | .resolveType name => do let _ ← TypeTable.resolveType name

/-- The table after some operations, those that fail included. -/
def after (operations : List Operation) : TypeTable :=
  operations.foldl (fun table operation => (operation.run table).2) initial

def changeClass (table : TypeTable) (type : TypeId) (change : ClassInfo → ClassInfo) : TypeTable :=
  { table with
    types := table.types.modify type fun info =>
      match info.kind with
      | .declared classInfo => { info with kind := .declared (change classInfo) }
      | _ => info }

/-- What an operation does to a table, one thing at a time. -/
inductive Step (table : TypeTable) : TypeTable → Prop
  | newClass (name : String) (isInterface : Bool) :
      Step table
        { table with
          types := table.types ++
            [⟨name, .declared { ClassInfo.empty with isInterface := isInterface }⟩] }
  | newArray (name : String) {element : TypeId} : element < table.types.length →
      Step table { table with types := table.types ++ [⟨name, .array element⟩] }
  | superclass (type : TypeId) {superclass : TypeId} {info : ClassInfo} :
      table.classInfo? superclass = some info → info.isInterface = false →
      Step table
        (table.changeClass type fun classInfo => { classInfo with superclass := some superclass })
  | interface (type : TypeId) {interface : TypeId} {info : ClassInfo} :
      table.classInfo? interface = some info →
      Step table (table.changeClass type fun classInfo =>
        { classInfo with interfaces := classInfo.interfaces ++ [interface] })
  | field (field : Field) :
      Step table
        { table.changeClass field.declaring fun classInfo =>
            { classInfo with fields := classInfo.fields ++ [table.fields.length] } with
          fields := table.fields ++ [field] }
  | method (method : Method) :
      Step table
        { table.changeClass method.declaring fun classInfo =>
            { classInfo with
              methods := classInfo.methods ++ [table.methods.length]
              classInitializer :=
                if method.isClassInitializer then some table.methods.length
                else classInfo.classInitializer } with
          methods := table.methods ++ [method] }

abbrev Steps : TypeTable → TypeTable → Prop := Relation.ReflTransGen Step

variable {table later : TypeTable} {type : TypeId}

/-! ## Steps of an operation -/

theorem requireClass_cases (table : TypeTable) (type : TypeId) :
    (∃ failure, requireClass type table = (.error failure, table)) ∨
      ∃ info, table.classInfo? type = some info ∧
        requireClass type table = (.ok info, table) := by
  unfold requireClass
  rw [run_bind, run_get]
  dsimp only
  rw [run_bind]
  cases found : table.types[type]? with
  | none => exact .inl ⟨_, rfl⟩
  | some entry =>
      rw [run_inRange_some]
      dsimp only
      cases isKind : entry.kind with
      | declared info =>
          exact .inr ⟨info, by simp [classInfo?, kind?, found, isKind, TypeKind.classInfo?],
            rfl⟩
      | primitive _ => exact .inl ⟨_, rfl⟩
      | array _ => exact .inl ⟨_, rfl⟩

theorem declareClass_cases (table : TypeTable) (name : String) (isInterface : Bool) :
    (∃ failure, declareClass name isInterface table = (.error failure, table)) ∨
      table.find? name = none ∧ Text.stripBrackets? name = none ∧ name ≠ "" ∧
        declareClass name isInterface table = (.ok table.types.length,
          { table with
            types := table.types ++
              [⟨name, .declared { ClassInfo.empty with isInterface := isInterface }⟩] }) := by
  unfold declareClass
  rw [run_bind, run_get]
  dsimp only
  split
  · exact .inl ⟨_, rfl⟩
  · next fresh =>
      split
      · exact .inl ⟨_, rfl⟩
      · next good =>
          have good : Text.stripBrackets? name = none ∧ name ≠ "" := by simpa using good
          exact .inr ⟨by simpa using fresh, good.1, good.2, rfl⟩

theorem setSuperclass_cases (table : TypeTable) (type superclass : TypeId) :
    (∃ failure, setSuperclass type superclass table = (.error failure, table)) ∨
      (∃ info, table.classInfo? superclass = some info ∧ info.isInterface = false) ∧
        (∃ own, table.classInfo? type = some own) ∧
        setSuperclass type superclass table = (.ok ⟨⟩,
          table.changeClass type fun classInfo =>
            { classInfo with superclass := some superclass }) := by
  unfold setSuperclass
  rw [run_bind, run_get]
  dsimp only
  rw [run_bind]
  cases found : table.types[superclass]? with
  | none => exact .inl ⟨_, rfl⟩
  | some entry =>
      obtain ⟨name, kind⟩ := entry
      cases kind with
      | declared info =>
          obtain ⟨_, _, isInterface, _, _, _⟩ := info
          cases isInterface with
          | true => exact .inl ⟨_, rfl⟩
          | false =>
              rw [run_inRange_some]
              dsimp only
              rw [run_bind]
              obtain ⟨failure, failed⟩ | ⟨own, isOwn, ran⟩ := requireClass_cases table type
              · exact .inl ⟨failure, by rw [failed]⟩
              · rw [ran]
                exact .inr ⟨⟨_, by simp only [classInfo?, kind?, found]; rfl, rfl⟩, ⟨own, isOwn⟩,
                  rfl⟩
      | primitive _ => exact .inl ⟨_, rfl⟩
      | array _ => exact .inl ⟨_, rfl⟩

theorem addInterface_cases (table : TypeTable) (type interface : TypeId) :
    (∃ failure, addInterface type interface table = (.error failure, table)) ∨
      (∃ info, table.classInfo? interface = some info) ∧
        (∃ own, table.classInfo? type = some own) ∧
        addInterface type interface table = (.ok ⟨⟩,
          table.changeClass type fun classInfo =>
            { classInfo with interfaces := classInfo.interfaces ++ [interface] }) := by
  unfold addInterface
  rw [run_bind, run_get]
  dsimp only
  rw [run_bind]
  cases found : table.types[interface]? with
  | none => exact .inl ⟨_, rfl⟩
  | some entry =>
      obtain ⟨name, kind⟩ := entry
      cases kind with
      | declared info =>
          rw [run_inRange_some]
          dsimp only
          rw [run_bind]
          obtain ⟨failure, failed⟩ | ⟨own, isOwn, ran⟩ := requireClass_cases table type
          · exact .inl ⟨failure, by rw [failed]⟩
          · rw [ran]
            refine .inr ⟨⟨info, ?_⟩, ⟨own, isOwn⟩, rfl⟩
            simp only [classInfo?, kind?, found]
            rfl
      | primitive _ => exact .inl ⟨_, rfl⟩
      | array _ => exact .inl ⟨_, rfl⟩

theorem addField_cases (table : TypeTable) (field : Field) :
    (∃ failure, addField field.declaring field.name field.type field.isStatic table =
      (.error failure, table)) ∨
      ∃ info, table.classInfo? field.declaring = some info ∧
        ¬ (info.fields.any fun id => (table.fields[id]?).any (·.name = field.name)) = true ∧
        addField field.declaring field.name field.type field.isStatic table =
          (.ok table.fields.length,
            { table.changeClass field.declaring fun classInfo =>
                { classInfo with fields := classInfo.fields ++ [table.fields.length] } with
              fields := table.fields ++ [field] }) := by
  unfold addField
  rw [run_bind]
  obtain ⟨failure, failed⟩ | ⟨info, isClass, ran⟩ := requireClass_cases table field.declaring
  · exact .inl ⟨failure, by rw [failed]⟩
  · rw [ran]
    dsimp only
    rw [run_bind, run_get]
    dsimp only
    split
    · rw [run_bind]
      cases table.typeName? field.declaring <;> exact .inl ⟨_, rfl⟩
    · next fresh => exact .inr ⟨info, isClass, fresh, rfl⟩

theorem addMethod_cases (table : TypeTable) (method : Method) :
    (∃ failure, addMethod method table = (.error failure, table)) ∨
      ∃ info, table.classInfo? method.declaring = some info ∧
        ¬ (info.methods.any fun id => (table.methods[id]?).any (·.name = method.name)) = true ∧
        ∃ declared : Method, declared = { method with
            isStatic := method.isStatic || method.name = classInitializerName } ∧
          addMethod method table = (.ok table.methods.length,
            { table.changeClass declared.declaring fun classInfo =>
                { classInfo with
                  methods := classInfo.methods ++ [table.methods.length]
                  classInitializer :=
                    if declared.isClassInitializer then some table.methods.length
                    else classInfo.classInitializer } with
              methods := table.methods ++ [declared] }) := by
  unfold addMethod
  rw [run_bind]
  obtain ⟨failure, failed⟩ | ⟨info, isClass, ran⟩ := requireClass_cases table method.declaring
  · exact .inl ⟨failure, by rw [failed]⟩
  · rw [ran]
    dsimp only
    rw [run_bind, run_get]
    dsimp only
    split
    · rw [run_bind]
      cases table.typeName? method.declaring <;> exact .inl ⟨_, rfl⟩
    · next fresh => exact .inr ⟨info, isClass, fresh, _, rfl, rfl⟩

/-- Resolving a text finds a type of its name, or adds one after those of the elements. -/
inductive Interns : TypeTable → String → TypeId → TypeTable → Prop
  | known {table : TypeTable} {written : String} {id : TypeId} :
      table.find? (Text.trim written) = some id → Interns table written id table
  | array {table between : TypeTable} {written inner : String} {element : TypeId} :
      table.find? (Text.trim written) = none →
      Text.stripBrackets? (Text.trim written) = some inner → inner ≠ "" →
      Interns table inner element between →
      Interns table written between.types.length
        { between with types := between.types ++ [⟨Text.trim written, .array element⟩] }

theorem resolveWithin_cases (table : TypeTable) (depth : Nat) (written : String) :
    (∃ failure, resolveWithin depth written table = (.error failure, table)) ∨
      ∃ id later, resolveWithin depth written table = (.ok id, later) ∧
        table.Interns written id later := by
  induction depth generalizing written with
  | zero => exact .inl ⟨_, rfl⟩
  | succ depth ih =>
      unfold resolveWithin
      rw [run_bind, run_get]
      dsimp only
      cases found : table.find? (Text.trim written) with
      | some known => exact .inr ⟨known, table, rfl, .known found⟩
      | none =>
          cases isArray : Text.stripBrackets? (Text.trim written) with
          | none =>
              dsimp only
              split <;> exact .inl ⟨_, rfl⟩
          | some inner =>
              dsimp only
              split
              · exact .inl ⟨_, rfl⟩
              · next nonempty =>
                  rw [run_bind]
                  obtain ⟨failure, failed⟩ | ⟨element, between, ran, interns⟩ := ih inner
                  · exact .inl ⟨failure, by rw [failed]⟩
                  · rw [ran]
                    exact .inr ⟨_, _, rfl,
                      .array found isArray (by simpa using nonempty) interns⟩

/-- The types of the elements come first, and what is resolved is a type. -/
theorem Interns.steps {written : String} {id : TypeId} (interns : table.Interns written id later) :
    table.Steps later ∧ id < later.types.length := by
  induction interns with
  | known found => exact ⟨.refl, lt_length_of_find? found⟩
  | array _ _ _ _ ih => exact ⟨ih.1.tail (.newArray _ ih.2), by simp⟩

private theorem Operation.run_steps (operation : Operation) (table : TypeTable) :
    table.Steps (operation.run table).2 := by
  cases operation with
  | declareClass name isInterface =>
      refine (state_discard _ table).symm ▸ ?_
      obtain ⟨_, failed⟩ | ⟨_, _, _, ran⟩ := declareClass_cases table name isInterface
      · rw [failed]
      · rw [ran]
        exact .single (.newClass name isInterface)
  | setSuperclass type superclass =>
      obtain ⟨_, failed⟩ | ⟨⟨_, isClass, isPlain⟩, _, ran⟩ :=
        setSuperclass_cases table type superclass
      · rw [Operation.run, failed]
      · rw [Operation.run, ran]
        exact .single (.superclass type isClass isPlain)
  | addInterface type interface =>
      obtain ⟨_, failed⟩ | ⟨⟨_, isClass⟩, _, ran⟩ := addInterface_cases table type interface
      · rw [Operation.run, failed]
      · rw [Operation.run, ran]
        exact .single (.interface type isClass)
  | addField declaring name type isStatic =>
      refine (state_discard _ table).symm ▸ ?_
      obtain ⟨_, failed⟩ | ⟨_, _, _, ran⟩ := addField_cases table ⟨declaring, name, type, isStatic⟩
      · rw [failed]
      · rw [ran]
        exact .single (.field ⟨declaring, name, type, isStatic⟩)
  | addMethod method =>
      refine (state_discard _ table).symm ▸ ?_
      obtain ⟨_, failed⟩ | ⟨_, _, _, declared, _, ran⟩ := addMethod_cases table method
      · rw [failed]
      · rw [ran]
        exact .single (.method declared)
  | resolveType name =>
      refine (state_discard _ table).symm ▸ ?_
      obtain ⟨_, failed⟩ | ⟨_, _, ran, interns⟩ := resolveWithin_cases table (name.length + 1) name
      · rw [TypeTable.resolveType, failed]
      · rw [TypeTable.resolveType, ran]
        exact interns.steps.1

theorem after_concat (operations : List Operation) (operation : Operation) :
    after (operations ++ [operation]) = (operation.run (after operations)).2 := by
  simp [after]

theorem after_induction {holds : TypeTable → Prop} (start : holds initial)
    (keeps : ∀ table later, holds table → table.Step later → holds later)
    (operations : List Operation) : holds (after operations) := by
  have steps_keep : ∀ {table later}, table.Steps later → holds table → holds later := by
    intro table later steps here
    induction steps with
    | refl => exact here
    | tail _ last kept => exact keeps _ _ kept last
  unfold after
  generalize initial = table at start ⊢
  induction operations generalizing table with
  | nil => exact start
  | cons operation operations ih => exact ih _ (steps_keep (operation.run_steps table) start)

section Changes

variable {change : ClassInfo → ClassInfo}

theorem kind?_of_types (types : later.types = (table.changeClass type change).types)
    (other : TypeId) : later.kind? other =
      if type = other then (table.kind? other).map (changed change) else table.kind? other := by
  rw [← kind?_modify change table.methods table.fields other]
  simp only [kind?, types]
  rfl

theorem classInfo?_of_types (types : later.types = (table.changeClass type change).types)
    (other : TypeId) : later.classInfo? other =
      if type = other then (table.classInfo? other).map change else table.classInfo? other := by
  rw [← classInfo?_modify change table.methods table.fields other]
  simp only [classInfo?, kind?, types]
  rfl

end Changes

/-! ## Grounded tables -/

structure Grounded (table : TypeTable) : Prop where
  object : (table.classInfo? objectType).isSome
  elements : ∀ type element, table.kind? type = some (.array element) → element < type
  parents : ∀ type, ∀ parent ∈ table.parents type, (table.classInfo? parent).isSome

theorem mem_parents_iff {parent : TypeId} : parent ∈ table.parents type ↔
    ∃ info, table.classInfo? type = some info ∧ parent ∈ info.parents := by
  unfold parents
  cases table.classInfo? type <;> simp

private theorem grounded_initial : initial.Grounded := by
  have elements : ∀ type < initial.types.length,
      (initial.kind? type).bind TypeKind.element? = none := by decide
  have parents : ∀ type < initial.types.length, ∀ parent ∈ initial.parents type,
      (initial.classInfo? parent).isSome := by decide
  refine ⟨rfl, fun type element isArray => ?_, fun type parent isParent => ?_⟩
  · have none := elements type (lt_length_of_kind? isArray)
    rw [isArray] at none
    cases none
  · obtain ⟨info, isClass, _⟩ := mem_parents_iff.mp isParent
    exact parents type (lt_length_of_classInfo? isClass) parent isParent

private theorem Grounded.push (grounded : table.Grounded) {entry : TypeInfo}
    (element : ∀ element, entry.kind = .array element → element < table.types.length)
    (plain : ∀ info, entry.kind = .declared info → info.parents = []) :
    { table with types := table.types ++ [entry] }.Grounded := by
  have stays : ∀ other, (table.classInfo? other).isSome →
      ({ table with types := table.types ++ [entry] }.classInfo? other).isSome := by
    intro other isClass
    obtain ⟨info, isClass⟩ := Option.isSome_iff_exists.mp isClass
    rw [classInfo?_push, if_neg (Nat.ne_of_lt (lt_length_of_classInfo? isClass)), isClass]
    rfl
  refine ⟨stays _ grounded.object, fun type inner isArray => ?_, fun type parent isParent => ?_⟩
  · rw [kind?_push] at isArray
    split at isArray
    · next isNew => exact isNew ▸ element inner (Option.some.inj isArray)
    · exact grounded.elements type inner isArray
  · obtain ⟨info, isClass, isParent⟩ := mem_parents_iff.mp isParent
    rw [classInfo?_push] at isClass
    split at isClass
    · have isKind : entry.kind = .declared info := by
        cases isKind : entry.kind <;> rw [isKind] at isClass <;> cases isClass
        rfl
      rw [plain info isKind] at isParent
      cases isParent
    · exact stays _ (grounded.parents type parent (mem_parents_iff.mpr ⟨info, isClass, isParent⟩))

private theorem Grounded.change (grounded : table.Grounded) {change : ClassInfo → ClassInfo}
    (types : later.types = (table.changeClass type change).types)
    (known : ∀ info, table.classInfo? type = some info → ∀ parent ∈ (change info).parents,
      parent ∈ info.parents ∨ (table.classInfo? parent).isSome) : later.Grounded := by
  have kinds := kind?_of_types types
  have classes := classInfo?_of_types types
  have stays : ∀ other, (table.classInfo? other).isSome → (later.classInfo? other).isSome := by
    intro other isClass
    rw [classes]
    split <;> simpa using isClass
  refine ⟨stays _ grounded.object, fun other element isArray => ?_, fun other parent isParent => ?_⟩
  · rw [kinds] at isArray
    split at isArray
    · exact grounded.elements other element (eq_array_of_changed isArray)
    · exact grounded.elements other element isArray
  · obtain ⟨info, isClass, isParent⟩ := mem_parents_iff.mp isParent
    refine stays _ ?_
    have earlier : ∀ info, table.classInfo? other = some info → parent ∈ info.parents →
        (table.classInfo? parent).isSome := fun info isClass isParent =>
      grounded.parents other parent (mem_parents_iff.mpr ⟨info, isClass, isParent⟩)
    rw [classes] at isClass
    split at isClass
    · next same =>
        subst same
        obtain ⟨before, isBefore, rfl⟩ := Option.map_eq_some_iff.mp isClass
        obtain old | isClass := known before isBefore parent isParent
        · exact earlier before isBefore old
        · exact isClass
    · exact earlier info isClass isParent

private theorem Grounded.step (grounded : table.Grounded) (step : table.Step later) :
    later.Grounded := by
  cases step with
  | newClass name isInterface => exact grounded.push nofun fun info same => by cases same; rfl
  | newArray name inRange =>
      exact grounded.push (fun element same => by cases same; exact inRange) nofun
  | superclass type isClass _ =>
      refine grounded.change rfl fun info _ parent isParent => ?_
      simp only [ClassInfo.parents, List.mem_append, Option.mem_toList] at isParent ⊢
      rcases isParent with same | isParent
      · cases same
        exact .inr (Option.isSome_iff_exists.mpr ⟨_, isClass⟩)
      · exact .inl (.inr isParent)
  | interface type isClass =>
      refine grounded.change rfl fun info _ parent isParent => ?_
      simp only [ClassInfo.parents, List.mem_append, List.mem_singleton] at isParent ⊢
      rcases isParent with isParent | isParent | rfl
      · exact .inl (.inl isParent)
      · exact .inl (.inr isParent)
      · exact .inr (Option.isSome_iff_exists.mpr ⟨_, isClass⟩)
  | field field => exact grounded.change rfl fun _ _ _ isParent => .inl isParent
  | method method => exact grounded.change rfl fun _ _ _ isParent => .inl isParent

theorem grounded_after (operations : List Operation) : (after operations).Grounded :=
  after_induction grounded_initial (fun _ _ grounded step => grounded.step step) operations

/-! ## Listed fields -/

def ListsOnce (table : TypeTable) : Prop :=
  ∀ type info, table.classInfo? type = some info →
    info.fields.Nodup ∧ ∀ id ∈ info.fields, id < table.fields.length

private theorem listsOnce_initial : initial.ListsOnce := by
  have fields : ∀ type < initial.types.length, ∀ info ∈ initial.classInfo? type,
      info.fields = [] := by decide
  intro type info isClass
  rw [fields type (lt_length_of_classInfo? isClass) info isClass]
  exact ⟨List.nodup_nil, by simp⟩

private theorem ListsOnce.push (once : table.ListsOnce) {entry : TypeInfo}
    (plain : ∀ info, entry.kind = .declared info → info.fields = []) :
    { table with types := table.types ++ [entry] }.ListsOnce := by
  intro type info isClass
  rw [classInfo?_push] at isClass
  split at isClass
  · obtain isKind : entry.kind = .declared info := by
      cases isKind : entry.kind <;> rw [isKind] at isClass <;> cases isClass
      rfl
    rw [plain info isKind]
    exact ⟨List.nodup_nil, by simp⟩
  · exact once type info isClass

private theorem ListsOnce.change (once : table.ListsOnce) {change : ClassInfo → ClassInfo}
    (types : later.types = (table.changeClass type change).types)
    (grows : table.fields.length ≤ later.fields.length)
    (adds : ∀ info, (change info).fields = info.fields ∨
      (change info).fields = info.fields ++ [table.fields.length] ∧
        table.fields.length < later.fields.length) : later.ListsOnce := by
  have classes := classInfo?_of_types types
  have stays : ∀ other info, table.classInfo? other = some info →
      info.fields.Nodup ∧ ∀ id ∈ info.fields, id < later.fields.length := fun other info isClass =>
    ⟨(once other info isClass).1, fun id member =>
      Nat.lt_of_lt_of_le ((once other info isClass).2 id member) grows⟩
  intro other info isClass
  rw [classes] at isClass
  split at isClass
  · obtain ⟨before, isBefore, rfl⟩ := Option.map_eq_some_iff.mp isClass
    obtain same | ⟨added, isNew⟩ := adds before
    · rw [same]
      exact stays other before isBefore
    · rw [added]
      obtain ⟨distinct, below⟩ := once other before isBefore
      refine ⟨List.nodup_append.mpr ⟨distinct, by simp, ?_⟩, ?_⟩
      · rintro id member _ last rfl
        exact Nat.ne_of_lt (below id member) (List.mem_singleton.mp last)
      · intro id member
        rcases List.mem_append.mp member with earlier | last
        · exact Nat.lt_of_lt_of_le (below id earlier) grows
        · exact List.mem_singleton.mp last ▸ isNew
  · exact stays other info isClass

private theorem ListsOnce.step (once : table.ListsOnce) (step : table.Step later) :
    later.ListsOnce := by
  cases step with
  | newClass name isInterface => exact once.push fun info same => by cases same; rfl
  | newArray name _ => exact once.push nofun
  | superclass type _ _ => exact once.change rfl (Nat.le_refl _) fun _ => .inl rfl
  | interface type _ => exact once.change rfl (Nat.le_refl _) fun _ => .inl rfl
  | field field =>
      exact once.change rfl (by simp) fun _ => .inr ⟨rfl, by simp⟩
  | method method => exact once.change rfl (Nat.le_refl _) fun _ => .inl rfl

theorem listsOnce_after (operations : List Operation) : (after operations).ListsOnce :=
  after_induction listsOnce_initial (fun _ _ once step => once.step step) operations

theorem ListsOnce.withDefaultSuperclass (once : table.ListsOnce) :
    table.withDefaultSuperclass.ListsOnce := by
  intro type info isClass
  rw [classInfo?_withDefaultSuperclass] at isClass
  obtain ⟨before, isBefore, rfl⟩ := Option.map_eq_some_iff.mp isClass
  split <;> exact once type before isBefore

end TypeTable

/-! ## The operations of a declaration -/

namespace Declaration

open Effect TypeTable

def Reached (table : TypeTable) : Prop := ∃ operations, table = after operations

private theorem keeps_reached {α : Type} {build : Build α} (operation : Operation)
    (isRun : ∀ table value later, build table = (.ok value, later) →
      (operation.run table).2 = later) : Keeps Reached build fun _ => True := by
  rintro _ ⟨operations, rfl⟩ value later run
  exact ⟨⟨operations ++ [operation], by rw [after_concat, isRun _ _ _ run]⟩, trivial⟩

private theorem kept_reached : Kept fun table => table.Linked ∧ Reached table where
  declareClass := by
    intro name isInterface
    refine (kept_linked.declareClass name isInterface).and ?_
    exact keeps_reached (.declareClass name isInterface) fun _ _ _ run => by
      simp [Operation.run, run_bind, run, run_pure]
  setSuperclass := by
    intro type other superclass
    refine (kept_linked.setSuperclass other superclass).and ?_
    exact keeps_reached (.setSuperclass type superclass) fun _ _ _ run => by
      simp [Operation.run, run]
  addInterface := by
    intro type other interface
    refine (kept_linked.addInterface other interface).and ?_
    exact keeps_reached (.addInterface type interface) fun _ _ _ run => by
      simp [Operation.run, run]
  addField := by
    intro declaring other name typeName isStatic
    refine (kept_linked.addField other name typeName isStatic).and ?_
    refine (keeps_reached (.resolveType typeName) fun _ _ _ run => by
      simp [Operation.run, run_bind, run, run_pure]).andThen fun type => ?_
    exact (keeps_reached (.addField declaring name type isStatic) fun _ _ _ run => by
      simp [Operation.run, run_bind, run, run_pure]).andThen fun _ => .pure trivial
  addMethod := by
    intro method
    refine (kept_linked.addMethod method).and ?_
    exact keeps_reached (.addMethod method) fun _ _ _ run => by
      simp [Operation.run, run_bind, run, run_pure]
  resolveType := by
    intro name
    refine (kept_linked.resolveType name).and ?_
    exact keeps_reached (.resolveType name) fun _ _ _ run => by
      simp [Operation.run, run_bind, run, run_pure]

/-- The hierarchy of a declaration is built by operations that attach nothing to `Object`. -/
theorem hierarchy_after {program : Program} {hierarchy : Hierarchy}
    (built : program.hierarchy = .ok hierarchy) :
    ∃ operations, (after operations).parents objectType = [] ∧
      hierarchy = (after operations).build := by
  unfold Program.hierarchy at built
  split at built
  · next table run =>
      cases built
      obtain ⟨⟨linked, operations, rfl⟩, _⟩ :=
        kept_reached.declareTypes program _ ⟨linked_initial, [], rfl⟩ () table run
      refine ⟨operations, List.eq_nil_iff_forall_not_mem.mpr fun parent isParent => ?_, rfl⟩
      obtain ⟨info, isClass, isParent⟩ := mem_parents_iff.mp isParent
      rw [((linked.classes _ info isClass).root rfl).1] at isParent
      cases isParent
  · cases built

end Declaration

end ObjectFlow
