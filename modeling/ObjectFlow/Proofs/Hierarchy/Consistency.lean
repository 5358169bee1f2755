import ObjectFlow.Proofs.Hierarchy.Spelling

/-!
# Consistency of the builder

The tables of a builder refer to each other: names to types, types to the types
above them and to their elements, classes to their members and members to the
classes that declare them.  After any operations, those that fail included, the
references fit together, and an operation that fails leaves them all alone.
-/

namespace ObjectFlow

/-! ## Positions of members -/

section Owned

variable {α : Type} {declaring : α → TypeId} {entries : List α} {entry : α} {type : TypeId}

/-- The positions of what a class declares in a table of members. -/
def owned (declaring : α → TypeId) (entries : List α) (type : TypeId) : List Nat :=
  (List.range entries.length).filter fun id => (entries[id]?).any (declaring · = type)

theorem mem_owned {id : Nat} :
    id ∈ owned declaring entries type ↔
      ∃ entry, entries[id]? = some entry ∧ declaring entry = type := by
  simp only [owned, List.mem_filter, List.mem_range, Option.any_eq_true, decide_eq_true_eq]
  refine and_iff_right_of_imp fun ⟨_, found, _⟩ => ?_
  exact (List.getElem?_eq_some_iff.mp found).1

private theorem nodup_owned : (owned declaring entries type).Nodup :=
  List.nodup_range.filter _

private theorem owned_concat : owned declaring (entries ++ [entry]) type =
    owned declaring entries type ++ if declaring entry = type then [entries.length] else [] := by
  have earlier : ∀ id ∈ List.range entries.length,
      (((entries ++ [entry])[id]?).any (declaring · = type)) =
        (entries[id]?).any (declaring · = type) := by
    intro id member
    rw [List.getElem?_append_left (List.mem_range.mp member)]
  rw [owned, List.length_append, List.length_singleton, List.range_succ, List.filter_append,
    List.filter_congr earlier, ← owned]
  simp [List.filter_singleton]

private theorem owned_eq_nil (elsewhere : ∀ entry ∈ entries, declaring entry ≠ type) :
    owned declaring entries type = [] := by
  refine List.eq_nil_iff_forall_not_mem.mpr fun id member => ?_
  obtain ⟨entry, found, declares⟩ := mem_owned.mp member
  exact elsewhere entry (List.mem_of_getElem? found) declares

end Owned

namespace TypeTable

open Effect

variable {table later : TypeTable} {type : TypeId}

/-! ## Listed members -/

structure Listed {α : Type} (table : TypeTable) (list : ClassInfo → List Nat)
    (declaring : α → TypeId) (name : α → String) (entries : List α) : Prop where
  lists : ∀ type info, table.classInfo? type = some info → list info = owned declaring entries type
  owners : ∀ entry ∈ entries, (table.classInfo? (declaring entry)).isSome
  names : (entries.map fun entry => (declaring entry, name entry)).Nodup

namespace Listed

variable {α : Type} {list : ClassInfo → List Nat} {declaring : α → TypeId} {name : α → String}
  {entries : List α} {entry : α}

private theorem push (listed : table.Listed list declaring name entries) {new : TypeInfo}
    (plain : ∀ info, new.kind = .declared info → list info = []) :
    { table with types := table.types ++ [new] }.Listed list declaring name entries := by
  have below : ∀ entry ∈ entries, declaring entry < table.types.length := fun entry member => by
    obtain ⟨info, isClass⟩ := Option.isSome_iff_exists.mp (listed.owners entry member)
    exact lt_length_of_classInfo? isClass
  refine ⟨fun type info isClass => ?_, fun entry member => ?_, listed.names⟩
  · rw [classInfo?_push] at isClass
    split at isClass
    · next isNew =>
        have isKind : new.kind = .declared info := by
          cases isKind : new.kind <;> rw [isKind] at isClass <;> cases isClass
          rfl
        rw [plain info isKind, owned_eq_nil fun entry member same => ?_]
        exact Nat.ne_of_lt (below entry member) (same.trans isNew)
    · exact listed.lists type info isClass
  · rw [classInfo?_push, if_neg (Nat.ne_of_lt (below entry member))]
    exact listed.owners entry member

theorem change (listed : table.Listed list declaring name entries)
    {change : ClassInfo → ClassInfo} (types : later.types = (table.changeClass type change).types)
    (same : ∀ info, list (change info) = list info) :
    later.Listed list declaring name entries := by
  have classes := classInfo?_of_types types
  refine ⟨fun other info isClass => ?_, fun entry member => ?_, listed.names⟩
  · rw [classes] at isClass
    split at isClass
    · obtain ⟨before, isBefore, rfl⟩ := Option.map_eq_some_iff.mp isClass
      rw [same]
      exact listed.lists other before isBefore
    · exact listed.lists other info isClass
  · rw [classes]
    split <;> simpa using listed.owners entry member

theorem unused (listed : table.Listed list declaring name entries) {info : ClassInfo}
    (isOwner : table.classInfo? type = some info) {newName : String}
    (fresh : ¬ ((list info).any fun id => (entries[id]?).any (name · = newName)) = true) :
    ∀ entry ∈ entries, declaring entry = type → name entry ≠ newName := by
  intro entry member declares sameName
  obtain ⟨id, found⟩ := List.mem_iff_getElem?.mp member
  refine fresh (List.any_eq_true.mpr ⟨id, ?_, by simp [found, sameName]⟩)
  rw [listed.lists type info isOwner]
  exact mem_owned.mpr ⟨entry, found, declares⟩

theorem add (listed : table.Listed list declaring name entries) {change : ClassInfo → ClassInfo}
    (types : later.types = (table.changeClass (declaring entry) change).types)
    (adds : ∀ info, list (change info) = list info ++ [entries.length])
    (isOwner : (table.classInfo? (declaring entry)).isSome)
    (unused : ∀ other ∈ entries, declaring other = declaring entry → name other ≠ name entry) :
    later.Listed list declaring name (entries ++ [entry]) := by
  have classes := classInfo?_of_types types
  refine ⟨fun type own isClass => ?_, fun other member => ?_, ?_⟩
  · rw [classes] at isClass
    rw [owned_concat]
    split at isClass
    · next declares =>
        obtain ⟨before, isBefore, rfl⟩ := Option.map_eq_some_iff.mp isClass
        rw [if_pos declares, adds, listed.lists type before isBefore]
    · next elsewhere =>
        rw [if_neg elsewhere, List.append_nil]
        exact listed.lists type own isClass
  · have isClass : (table.classInfo? (declaring other)).isSome := by
      rcases List.mem_append.mp member with earlier | last
      · exact listed.owners other earlier
      · rw [List.mem_singleton.mp last]
        exact isOwner
    rw [classes]
    split <;> simpa using isClass
  · rw [List.map_append, List.map_singleton, List.nodup_append]
    refine ⟨listed.names, List.nodup_singleton _, fun pair member last isLast same => ?_⟩
    obtain ⟨other, isOther, rfl⟩ := List.mem_map.mp member
    obtain ⟨declares, sameName⟩ := Prod.mk.inj (same.trans (List.mem_singleton.mp isLast))
    exact unused other isOther declares sameName

private theorem unique (listed : table.Listed list declaring name entries) {id id' : Nat}
    {other : α} (found : entries[id]? = some entry) (found' : entries[id']? = some other)
    (declares : declaring entry = declaring other) (sameName : name entry = name other) :
    id = id' := by
  have pair : ∀ {id : Nat} {entry : α}, entries[id]? = some entry →
      (entries.map fun entry => (declaring entry, name entry))[id]? =
        some (declaring entry, name entry) := by
    intro id entry found
    rw [List.getElem?_map, found]
    rfl
  have below := (List.getElem?_eq_some_iff.mp (pair found)).1
  refine (List.getElem?_inj below listed.names).mp ?_
  rw [pair found, pair found', declares, sameName]

end Listed

/-! ## What classes extend -/

def ExtendsClasses (table : TypeTable) : Prop :=
  ∀ type info parent, table.classInfo? type = some info → info.superclass = some parent →
    ∃ above, table.classInfo? parent = some above ∧ above.isInterface = false

theorem classInfo?_push_cases {new : TypeInfo} {info : ClassInfo}
    (isClass : { table with types := table.types ++ [new] }.classInfo? type = some info) :
    (type = table.types.length ∧ new.kind = .declared info) ∨
      table.classInfo? type = some info := by
  rw [classInfo?_push] at isClass
  split at isClass
  · next isNew =>
      refine .inl ⟨isNew, ?_⟩
      cases isKind : new.kind <;> rw [isKind] at isClass <;> cases isClass
      rfl
  · exact .inr isClass

private theorem ExtendsClasses.push (extends' : table.ExtendsClasses) {new : TypeInfo}
    (plain : ∀ info, new.kind = .declared info → info.superclass = none) :
    { table with types := table.types ++ [new] }.ExtendsClasses := by
  intro type info parent isClass isParent
  rcases classInfo?_push_cases isClass with ⟨_, isKind⟩ | isClass
  · rw [plain info isKind] at isParent
    cases isParent
  · obtain ⟨above, isAbove, isPlain⟩ := extends' type info parent isClass isParent
    refine ⟨above, ?_, isPlain⟩
    rw [classInfo?_push, if_neg (Nat.ne_of_lt (lt_length_of_classInfo? isAbove)), isAbove]

theorem ExtendsClasses.change (extends' : table.ExtendsClasses) {change : ClassInfo → ClassInfo}
    (types : later.types = (table.changeClass type change).types)
    (superclass : ∀ info parent, (change info).superclass = some parent →
      info.superclass = some parent ∨
        ∃ above, table.classInfo? parent = some above ∧ above.isInterface = false)
    (same : ∀ info, (change info).isInterface = info.isInterface) : later.ExtendsClasses := by
  have classes := classInfo?_of_types types
  intro other info parent isClass isParent
  have isAbove : ∃ above, table.classInfo? parent = some above ∧ above.isInterface = false := by
    rw [classes] at isClass
    split at isClass
    · obtain ⟨before, isBefore, rfl⟩ := Option.map_eq_some_iff.mp isClass
      rcases superclass before parent isParent with isParent | isAbove
      · exact extends' other before parent isBefore isParent
      · exact isAbove
    · exact extends' other info parent isClass isParent
  obtain ⟨above, isAbove, isPlain⟩ := isAbove
  rw [classes, isAbove]
  split
  · exact ⟨change above, rfl, (same above).trans isPlain⟩
  · exact ⟨above, rfl, isPlain⟩

/-! ## Class initializers -/

/-- The initializer of a class is its method of that name, and it is static. -/
structure Initializes (table : TypeTable) : Prop where
  own : ∀ type info, table.classInfo? type = some info → ∀ id : MethodId,
    info.classInitializer = some id ↔ ∃ method, table.methods[id]? = some method ∧
      method.declaring = type ∧ method.name = classInitializerName
  static : ∀ method ∈ table.methods, method.name = classInitializerName → method.isStatic = true

private theorem Initializes.push (initializes : table.Initializes) {new : TypeInfo}
    (plain : ∀ info, new.kind = .declared info → info.classInitializer = none)
    (owners : ∀ method ∈ table.methods, (table.classInfo? method.declaring).isSome) :
    { table with types := table.types ++ [new] }.Initializes := by
  refine ⟨fun type info isClass id => ?_, initializes.static⟩
  rcases classInfo?_push_cases isClass with ⟨rfl, isKind⟩ | isClass
  · rw [plain info isKind]
    refine iff_of_false nofun ?_
    rintro ⟨method, found, declares, _⟩
    obtain ⟨info, isOwner⟩ :=
      Option.isSome_iff_exists.mp (owners method (List.mem_of_getElem? found))
    exact Nat.ne_of_lt (lt_length_of_classInfo? isOwner) declares
  · exact initializes.own type info isClass id

theorem Initializes.change (initializes : table.Initializes) {change : ClassInfo → ClassInfo}
    (types : later.types = (table.changeClass type change).types)
    (methods : later.methods = table.methods)
    (same : ∀ info, (change info).classInitializer = info.classInitializer) :
    later.Initializes := by
  refine ⟨fun other info isClass id => ?_, methods ▸ initializes.static⟩
  rw [classInfo?_of_types types] at isClass
  rw [methods]
  split at isClass
  · obtain ⟨before, isBefore, rfl⟩ := Option.map_eq_some_iff.mp isClass
    rw [same]
    exact initializes.own other before isBefore id
  · exact initializes.own other info isClass id

private theorem Initializes.add (initializes : table.Initializes) {method : Method}
    {change : ClassInfo → ClassInfo}
    (types : later.types = (table.changeClass method.declaring change).types)
    (methods : later.methods = table.methods ++ [method])
    (unused : ∀ other ∈ table.methods, other.declaring = method.declaring →
      other.name ≠ method.name)
    (static : method.name = classInitializerName → method.isStatic = true)
    (sets : ∀ info, (change info).classInitializer =
      if method.name = classInitializerName then some table.methods.length
      else info.classInitializer) : later.Initializes := by
  have found_iff : ∀ {id : MethodId} {other : Method}, later.methods[id]? = some other ↔
      table.methods[id]? = some other ∨ id = table.methods.length ∧ other = method := by
    intro id other
    rw [methods]
    refine ⟨getElem?_concat_cases, ?_⟩
    rintro (found | ⟨rfl, rfl⟩)
    · rw [List.getElem?_append_left (List.getElem?_eq_some_iff.mp found).1]
      exact found
    · exact List.getElem?_concat_length
  have stays : ∀ {type info}, table.classInfo? type = some info →
      ¬ (method.declaring = type ∧ method.name = classInitializerName) → ∀ id : MethodId,
        info.classInitializer = some id ↔ ∃ method, later.methods[id]? = some method ∧
          method.declaring = type ∧ method.name = classInitializerName := by
    intro type info isClass other id
    rw [initializes.own type info isClass]
    constructor
    · rintro ⟨found, isFound, meets⟩
      exact ⟨found, found_iff.mpr (.inl isFound), meets⟩
    · rintro ⟨found, isFound, meets⟩
      rcases found_iff.mp isFound with isFound | ⟨_, rfl⟩
      · exact ⟨found, isFound, meets⟩
      · exact absurd meets other
  refine ⟨fun type info isClass id => ?_, fun other member isName => ?_⟩
  · rw [classInfo?_of_types types] at isClass
    split at isClass
    · next declares =>
        obtain ⟨before, isBefore, rfl⟩ := Option.map_eq_some_iff.mp isClass
        rw [sets]
        split
        · next isName =>
            constructor
            · intro same
              cases same
              exact ⟨method, found_iff.mpr (.inr ⟨rfl, rfl⟩), declares, isName⟩
            · rintro ⟨found, isFound, declares', isName'⟩
              rcases found_iff.mp isFound with isFound | ⟨rfl, _⟩
              · exact absurd (isName'.trans isName.symm) (unused found
                  (List.mem_of_getElem? isFound) (declares'.trans declares.symm))
              · rfl
        · next otherName => exact stays isBefore (fun meets => otherName meets.2) id
    · next elsewhere => exact stays isClass (fun meets => elsewhere meets.1) id
  · rw [methods] at member
    rcases List.mem_append.mp member with earlier | last
    · exact initializes.static other earlier isName
    · rw [List.mem_singleton.mp last] at isName ⊢
      exact static isName

/-! ## Coherent tables -/

structure Coherent (table : TypeTable) : Prop where
  superclasses : table.ExtendsClasses
  methods : table.Listed ClassInfo.methods Method.declaring Method.name table.methods
  fields : table.Listed ClassInfo.fields Field.declaring Field.name table.fields
  initializers : table.Initializes

private theorem coherent_initial : initial.Coherent := by
  have classes : ∀ type < initial.types.length, ∀ info ∈ initial.classInfo? type,
      (∀ parent ∈ info.superclass, ∃ above ∈ initial.classInfo? parent,
        above.isInterface = false) ∧
      info.methods = owned Method.declaring initial.methods type ∧
      info.fields = owned Field.declaring initial.fields type ∧
      info.classInitializer = none := by decide
  have named : ∀ method ∈ initial.methods, method.name ≠ classInitializerName := by decide
  refine ⟨fun type info parent isClass => ?_, ⟨fun type info isClass => ?_, by decide, by decide⟩,
    ⟨fun type info isClass => ?_, by decide, by decide⟩, fun type info isClass id => ?_,
    fun method member isName => absurd isName (named method member)⟩
  all_goals
    obtain ⟨superclass, methods, fields, initializer⟩ :=
      classes type (lt_length_of_classInfo? isClass) info isClass
  · exact superclass parent
  · exact methods
  · exact fields
  · rw [initializer]
    refine iff_of_false nofun ?_
    rintro ⟨method, found, _, isName⟩
    exact named method (List.mem_of_getElem? found) isName

theorem Coherent.push (coherent : table.Coherent) {new : TypeInfo}
    (plain : ∀ info, new.kind = .declared info →
      ∃ isInterface, info = { ClassInfo.empty with isInterface := isInterface }) :
    { table with types := table.types ++ [new] }.Coherent := by
  refine ⟨coherent.superclasses.push fun info isKind => ?_,
    coherent.methods.push fun info isKind => ?_, coherent.fields.push fun info isKind => ?_,
    coherent.initializers.push (fun info isKind => ?_) coherent.methods.owners⟩
  all_goals
    obtain ⟨_, rfl⟩ := plain info isKind
    rfl

private theorem Interns.coherent {written : String} {id : TypeId}
    (interns : table.Interns written id later) (coherent : table.Coherent) : later.Coherent := by
  induction interns with
  | known _ => exact coherent
  | array _ _ _ _ ih => exact Coherent.push ih nofun

private theorem Coherent.superclass (coherent : table.Coherent) (type : TypeId) {parent : TypeId}
    {above : ClassInfo} (isAbove : table.classInfo? parent = some above)
    (isPlain : above.isInterface = false) :
    (table.changeClass type fun info => { info with superclass := some parent }).Coherent := by
  refine ⟨coherent.superclasses.change rfl (fun info parent isParent => ?_) fun _ => rfl,
    coherent.methods.change rfl fun _ => rfl, coherent.fields.change rfl fun _ => rfl,
    coherent.initializers.change rfl rfl fun _ => rfl⟩
  cases isParent
  exact .inr ⟨above, isAbove, isPlain⟩

private theorem Coherent.interface (coherent : table.Coherent) (type interface : TypeId) :
    (table.changeClass type fun info =>
      { info with interfaces := info.interfaces ++ [interface] }).Coherent :=
  ⟨coherent.superclasses.change rfl (fun _ _ => .inl) fun _ => rfl,
    coherent.methods.change rfl fun _ => rfl, coherent.fields.change rfl fun _ => rfl,
    coherent.initializers.change rfl rfl fun _ => rfl⟩

private theorem Coherent.field (coherent : table.Coherent) {field : Field} {info : ClassInfo}
    (isOwner : table.classInfo? field.declaring = some info)
    (fresh : ¬ (info.fields.any fun id => (table.fields[id]?).any (·.name = field.name)) = true) :
    { table.changeClass field.declaring fun info =>
        { info with fields := info.fields ++ [table.fields.length] } with
      fields := table.fields ++ [field] : TypeTable }.Coherent :=
  ⟨coherent.superclasses.change rfl (fun _ _ => .inl) fun _ => rfl,
    coherent.methods.change rfl fun _ => rfl,
    coherent.fields.add rfl (fun _ => rfl) (Option.isSome_iff_exists.mpr ⟨info, isOwner⟩)
      (coherent.fields.unused isOwner fresh),
    coherent.initializers.change rfl rfl fun _ => rfl⟩

private theorem Coherent.method (coherent : table.Coherent) {method : Method} {info : ClassInfo}
    (isOwner : table.classInfo? method.declaring = some info)
    (fresh : ¬ (info.methods.any fun id =>
      (table.methods[id]?).any (·.name = method.name)) = true)
    (static : method.name = classInitializerName → method.isStatic = true) :
    { table.changeClass method.declaring fun info =>
        { info with
          methods := info.methods ++ [table.methods.length]
          classInitializer :=
            if method.isClassInitializer then some table.methods.length
            else info.classInitializer } with
      methods := table.methods ++ [method] : TypeTable }.Coherent := by
  have unused := coherent.methods.unused isOwner fresh
  have isInitializer : method.isClassInitializer = true ↔ method.name = classInitializerName := by
    simp only [Method.isClassInitializer, Bool.and_eq_true, decide_eq_true_eq]
    exact and_iff_right_of_imp static
  exact ⟨coherent.superclasses.change rfl (fun _ _ => .inl) fun _ => rfl,
    coherent.methods.add rfl (fun _ => rfl) (Option.isSome_iff_exists.mpr ⟨info, isOwner⟩) unused,
    coherent.fields.change rfl fun _ => rfl,
    coherent.initializers.add rfl rfl unused static fun _ => by simp only [isInitializer]⟩

/-- Whatever an operation answers, it leaves a coherent table coherent. -/
theorem Coherent.run (coherent : table.Coherent) (operation : Operation) :
    (operation.run table).2.Coherent := by
  cases operation with
  | declareClass name isInterface =>
      refine (state_discard _ table).symm ▸ ?_
      obtain ⟨_, failed⟩ | ⟨_, _, _, ran⟩ := declareClass_cases table name isInterface
      · rw [failed]
        exact coherent
      · rw [ran]
        refine coherent.push fun info isKind => ?_
        cases isKind
        exact ⟨isInterface, rfl⟩
  | setSuperclass type superclass =>
      obtain ⟨_, failed⟩ | ⟨⟨above, isAbove, isPlain⟩, _, ran⟩ :=
        setSuperclass_cases table type superclass
      · rw [Operation.run, failed]
        exact coherent
      · rw [Operation.run, ran]
        exact coherent.superclass type isAbove isPlain
  | addInterface type interface =>
      obtain ⟨_, failed⟩ | ⟨_, _, ran⟩ := addInterface_cases table type interface
      · rw [Operation.run, failed]
        exact coherent
      · rw [Operation.run, ran]
        exact coherent.interface type interface
  | addField declaring name type isStatic =>
      refine (state_discard _ table).symm ▸ ?_
      obtain ⟨_, failed⟩ | ⟨info, isOwner, fresh, ran⟩ :=
        addField_cases table ⟨declaring, name, type, isStatic⟩
      · rw [failed]
        exact coherent
      · rw [ran]
        exact coherent.field isOwner fresh
  | addMethod method =>
      refine (state_discard _ table).symm ▸ ?_
      obtain ⟨_, failed⟩ | ⟨info, isOwner, fresh, declared, rfl, ran⟩ :=
        addMethod_cases table method
      · rw [failed]
        exact coherent
      · rw [ran]
        exact coherent.method isOwner fresh fun isName => by simpa using Or.inr isName
  | resolveType name =>
      refine (state_discard _ table).symm ▸ ?_
      obtain ⟨_, failed⟩ | ⟨_, _, ran, interns⟩ := resolveWithin_cases table (name.length + 1) name
      · rw [TypeTable.resolveType, failed]
        exact coherent
      · rw [TypeTable.resolveType, ran]
        exact interns.coherent coherent

private theorem coherent_after (operations : List Operation) : (after operations).Coherent := by
  induction operations using List.reverseRecOn with
  | nil => exact coherent_initial
  | append_singleton operations operation ih =>
      rw [after_concat]
      exact ih.run operation

/-! ## Names -/

/-- The types by name: each is filed under its name when it is added, over what was filed there. -/
def filed (types : List TypeInfo) : String → Option TypeId :=
  types.zipIdx.foldl (fun filed entry name =>
    if name = entry.1.name then some entry.2 else filed name) fun _ => none

private theorem filed_concat (types : List TypeInfo) (new : TypeInfo) (name : String) :
    filed (types ++ [new]) name =
      if name = new.name then some types.length else filed types name := by
  simp [filed, List.zipIdx_append]

theorem filed_eq_some_iff {types : List TypeInfo} (distinct : (types.map TypeInfo.name).Nodup)
    {name : String} {type : TypeId} :
    filed types name = some type ↔ (types[type]?).map TypeInfo.name = some name := by
  -- from the end, as the last type of a name is filed over the others
  induction types using List.reverseRecOn generalizing name type with
  | nil => simp [filed]
  | append_singleton types new ih =>
      rw [List.map_append, List.map_singleton, List.nodup_append] at distinct
      obtain ⟨distinct, _, fresh⟩ := distinct
      have earlier : ∀ {type : TypeId} {info : TypeInfo}, types[type]? = some info →
          info.name ≠ new.name :=
        fun found => fresh _ (List.mem_map_of_mem (List.mem_of_getElem? found)) _
          (List.mem_singleton_self _)
      rw [filed_concat]
      split
      · next isNew =>
          subst isNew
          constructor
          · intro same
            cases same
            rw [List.getElem?_concat_length]
            rfl
          · intro isName
            obtain ⟨info, found, sameName⟩ := Option.map_eq_some_iff.mp isName
            rcases getElem?_concat_cases found with found | ⟨rfl, _⟩
            · exact absurd sameName (earlier found)
            · rfl
      · next other =>
          rw [ih distinct]
          constructor
          · intro isName
            obtain ⟨info, found, sameName⟩ := Option.map_eq_some_iff.mp isName
            rw [List.getElem?_append_left (List.getElem?_eq_some_iff.mp found).1]
            exact isName
          · intro isName
            obtain ⟨info, found, sameName⟩ := Option.map_eq_some_iff.mp isName
            rcases getElem?_concat_cases found with found | ⟨_, rfl⟩
            · rw [found, Option.map_some, sameName]
            · exact absurd sameName.symm other

/-! ## Operations that fail -/

private theorem discard_failed {α : Type} {build : Build α} {failure : Failure}
    (cases : (∃ failure, build table = (.error failure, table)) ∨
      ∃ value after, build table = (.ok value, after))
    (run : (do let _ ← build : Build Unit) table = (.error failure, later)) : later = table := by
  rw [run_bind] at run
  obtain ⟨_, failed⟩ | ⟨_, _, ran⟩ := cases
  · rw [failed] at run
    cases run
    rfl
  · rw [ran] at run
    cases run

/-- An operation that fails leaves the table as it was. -/
theorem Operation.run_failed {operation : Operation} {failure : Failure}
    (run : operation.run table = (.error failure, later)) : later = table := by
  cases operation with
  | declareClass name isInterface =>
      refine discard_failed ?_ run
      obtain failed | ⟨_, _, _, ran⟩ := declareClass_cases table name isInterface
      · exact .inl failed
      · exact .inr ⟨_, _, ran⟩
  | setSuperclass type superclass =>
      rw [Operation.run] at run
      obtain ⟨_, failed⟩ | ⟨_, _, ran⟩ := setSuperclass_cases table type superclass
      · cases run.symm.trans failed
        rfl
      · cases run.symm.trans ran
  | addInterface type interface =>
      rw [Operation.run] at run
      obtain ⟨_, failed⟩ | ⟨_, _, ran⟩ := addInterface_cases table type interface
      · cases run.symm.trans failed
        rfl
      · cases run.symm.trans ran
  | addField declaring name type isStatic =>
      refine discard_failed ?_ run
      obtain failed | ⟨_, _, _, ran⟩ := addField_cases table ⟨declaring, name, type, isStatic⟩
      · exact .inl failed
      · exact .inr ⟨_, _, ran⟩
  | addMethod method =>
      refine discard_failed ?_ run
      obtain failed | ⟨_, _, _, _, _, ran⟩ := addMethod_cases table method
      · exact .inl failed
      · exact .inr ⟨_, _, ran⟩
  | resolveType name =>
      refine discard_failed ?_ run
      obtain failed | ⟨_, _, ran, _⟩ := resolveWithin_cases table (name.length + 1) name
      · exact .inl failed
      · exact .inr ⟨_, _, ran⟩

/-! ## All tables -/

/-- Each member is listed once, by the class that declares it, and has a name of its own there. -/
structure Accounts {α : Type} (table : TypeTable) (list : ClassInfo → List Nat)
    (declaring : α → TypeId) (name : α → String) (entries : List α) : Prop where
  once : ∀ (id : Nat) entry, entries[id]? = some entry →
    ∃ info, table.classInfo? (declaring entry) = some info ∧ (list info).count id = 1
  own : ∀ type info, table.classInfo? type = some info → ∀ id ∈ list info,
    ∃ entry, entries[id]? = some entry ∧ declaring entry = type
  names : ∀ (id id' : Nat) entry other, entries[id]? = some entry → entries[id']? = some other →
    declaring entry = declaring other → name entry = name other → id = id'

private theorem Listed.accounts {α : Type} {list : ClassInfo → List Nat} {declaring : α → TypeId}
    {name : α → String} {entries : List α}
    (listed : table.Listed list declaring name entries) :
    table.Accounts list declaring name entries where
  once id entry found := by
    obtain ⟨info, isOwner⟩ :=
      Option.isSome_iff_exists.mp (listed.owners entry (List.mem_of_getElem? found))
    refine ⟨info, isOwner, ?_⟩
    rw [listed.lists _ info isOwner]
    exact List.count_eq_one_of_mem nodup_owned (mem_owned.mpr ⟨entry, found, rfl⟩)
  own type info isClass id member := by
    rw [listed.lists type info isClass] at member
    exact mem_owned.mp member
  names _ _ _ _ found found' := listed.unique found found'

/-- After any operations, those that fail included, the tables fit together: the names are filed
one to one, elements come before their arrays, classes extend classes and implement classes, every
method and field is listed once by the class that declares it and under a name of its own, and the
initializer of a class is its static method of that name.  An operation that fails, at whatever
depth of a name, leaves the tables as they were. -/
theorem tables_consistent (operations : List Operation) :
    let table := after operations
    (∀ name type, (table.find? name = some type ↔ table.typeName? type = some name) ∧
      (filed table.types name = some type ↔ table.typeName? type = some name)) ∧
    (∀ type element, table.kind? type = some (.array element) → element < type) ∧
    (∀ type info, table.classInfo? type = some info →
      (∀ parent, info.superclass = some parent →
        ∃ above, table.classInfo? parent = some above ∧ above.isInterface = false) ∧
      (∀ parent ∈ info.interfaces, (table.classInfo? parent).isSome) ∧
      ∀ id, info.classInitializer = some id ↔ ∃ method, table.methods[id]? = some method ∧
        method.declaring = type ∧ method.name = classInitializerName) ∧
    (∀ method ∈ table.methods, method.name = classInitializerName → method.isStatic = true) ∧
    table.Accounts ClassInfo.methods Method.declaring Method.name table.methods ∧
    table.Accounts ClassInfo.fields Field.declaring Field.name table.fields ∧
    ∀ (operation : Operation) failure later,
      operation.run table = (.error failure, later) → later = table := by
  intro table
  have names : (table.types.map TypeInfo.name).Nodup := (spelled_after operations).names
  have grounded : table.Grounded := grounded_after operations
  have coherent : table.Coherent := coherent_after operations
  refine ⟨fun name type => ⟨find?_eq_some_iff names, filed_eq_some_iff names⟩, grounded.elements,
    fun type info isClass => ⟨fun parent => coherent.superclasses type info parent isClass,
      fun parent isParent => ?_, coherent.initializers.own type info isClass⟩,
    coherent.initializers.static, coherent.methods.accounts, coherent.fields.accounts,
    fun operation failure later run => Operation.run_failed run⟩
  refine grounded.parents type parent (mem_parents_iff.mpr ⟨info, isClass, ?_⟩)
  exact List.mem_append_right _ isParent

def refusedOperations : List Operation :=
  [.declareClass "A" false, .declareClass "I" true, .setSuperclass 10 11, .addInterface 10 11,
    .addField 10 "f" 10 false, .addField 10 "f" 4 true,
    .addMethod ⟨10, "m", [], none, false, false, false⟩,
    .addMethod ⟨10, "<clinit>", [], none, false, false, false⟩, .resolveType "A [][]"]

theorem tables_consistent_refused :
    let table := after refusedOperations
    (∃ later, (Operation.setSuperclass 10 11).run table =
        (.error (.error (.invalidSuperclass "I")), later) ∧ later = table) ∧
    (∃ later, (Operation.resolveType "B[][]").run table =
        (.error (.error (.unknownType "B")), later) ∧ later = table) ∧
    filed table.types "A [][]" = some 13 ∧
    ∃ info, table.classInfo? 10 = some info ∧ info.classInitializer = some 2 ∧
      info.methods.count 1 = 1 := by
  obtain ⟨names, _, classes, _, methods, _, unchanged⟩ := tables_consistent refusedOperations
  have superclass : ((Operation.setSuperclass 10 11).run (after refusedOperations)).1 =
      .error (.error (.invalidSuperclass "I")) := by decide +kernel
  have resolved : ((Operation.resolveType "B[][]").run (after refusedOperations)).1 =
      .error (.error (.unknownType "B")) := by decide +kernel
  have isClass : (after refusedOperations).classInfo? 10 =
      some ⟨none, [11], false, [0], [1, 2], some 2⟩ := by decide +kernel
  have initializer : (after refusedOperations).methods[2]? =
      some ⟨10, "<clinit>", [], none, true, false, false⟩ := by decide +kernel
  have plain : (after refusedOperations).methods[1]? =
      some ⟨10, "m", [], none, false, false, false⟩ := by decide +kernel
  refine ⟨⟨_, Prod.ext superclass rfl, unchanged _ _ _ (Prod.ext superclass rfl)⟩,
    ⟨_, Prod.ext resolved rfl, unchanged _ _ _ (Prod.ext resolved rfl)⟩,
    (names "A [][]" 13).2.mpr (by decide +kernel), _, isClass,
    ((classes 10 _ isClass).2.2 2).mpr ⟨_, initializer, rfl, rfl⟩, ?_⟩
  obtain ⟨own, isOwn, once⟩ := methods.once 1 _ plain
  cases isClass.symm.trans isOwn
  exact once

end TypeTable

end ObjectFlow
