import ObjectFlow.Proofs.Hierarchy.ByName

/-!
# What each operation adds to a sketch

Each operation that builds a hierarchy succeeds exactly if the sketch of the
table allows it, and leaves a table whose sketch has one thing more.  What is
asked of a name does not depend on the array types that have come up so far.
-/

namespace ObjectFlow

open Effect

/-! ## Sketches that grow -/

namespace Sketch

variable {sketch : Sketch} {name : String} {description : TypeDescription}

theorem stands_write_iff {text : String} : (sketch.write text).Stands name description ↔
    sketch.Stands name description ∨ Text.Mentions sketch.base text name ∧ name ∉ sketch.base ∧
      ∃ inner, Text.stripBrackets? name = some inner ∧ description = .array (Text.trim inner) := by
  constructor
  · intro stands
    cases stands with
    | initial found => exact .inl (.initial found)
    | declared member isName => exact .inl (.declared member isName)
    | array isWritten mentions isNew isArray =>
        rcases List.mem_append.mp isWritten with earlier | last
        · exact .inl (.array earlier mentions isNew isArray)
        · obtain rfl := List.mem_singleton.mp last
          exact .inr ⟨mentions, isNew, _, isArray, rfl⟩
  · rintro (stands | ⟨mentions, isNew, inner, isArray, rfl⟩)
    · cases stands with
      | initial found => exact .initial found
      | declared member isName => exact .declared member isName
      | array isWritten mentions isNew isArray =>
          exact .array (List.mem_append_left _ isWritten) mentions isNew isArray
    · exact .array (List.mem_append_right _ List.mem_cons_self) mentions isNew isArray

private theorem Stands.change_of_ne {changed : String}
    {change : ClassDescription → ClassDescription} {methods : List (String × String)}
    (stands : sketch.Stands name description) (other : name ≠ changed) :
    { sketch.change changed change with methods := methods }.Stands name description := by
  cases stands with
  | initial found => exact .initial found
  | declared member isName =>
      have same : sketch.state name =
          Function.update sketch.state changed (change (sketch.state changed)) name :=
        (Function.update_of_ne other _ _).symm
      rw [same]
      exact .declared member isName
  | array isWritten mentions isNew isArray => exact .array isWritten mentions isNew isArray

private theorem Stands.of_change {changed : String} {change : ClassDescription → ClassDescription}
    {methods : List (String × String)}
    (stands : { sketch.change changed change with methods := methods }.Stands name description) :
    ∃ before, sketch.Stands name before := by
  cases stands with
  | initial found => exact ⟨_, .initial found⟩
  | declared member isName => exact ⟨_, .declared member isName⟩
  | array isWritten mentions isNew isArray =>
      exact ⟨_, .array isWritten mentions isNew isArray⟩

end Sketch

namespace TypeTable

variable {table later : TypeTable} {sketch : Sketch}

theorem Shows.mem_names_of_base (shows : table.Shows sketch) {name : String}
    (isBase : name ∈ sketch.base) : name ∈ table.types.map TypeInfo.name := by
  rcases List.mem_append.mp isBase with isInitial | isClass
  · obtain ⟨type, isName⟩ := mem_names_iff.mp isInitial
    exact mem_names_iff.mpr ⟨type, shows.stays.names isName⟩
  · obtain ⟨declared, member, isName⟩ := List.mem_map.mp isClass
    exact shows.complete (.declared member isName)

private theorem Shows.congr (shows : table.Shows sketch) {after : Sketch} (base : after.base.Nodup)
    (methods : after.methods = sketch.methods)
    (resolved : ∀ text ∈ after.written, Text.Resolves after.base text)
    (same : ∀ name description, after.Stands name description ↔ sketch.Stands name description) :
    table.Shows after := by
  refine ⟨shows.names, base, shows.stays, fun found => ?_, fun stands => ?_, resolved, ?_⟩
  · obtain ⟨description, isDescription, stands⟩ := shows.described found
    exact ⟨description, isDescription, (same _ _).mpr stands⟩
  · exact shows.complete ((same _ _).mp stands)
  · rw [methods, shows.methods]

theorem Shows.push (shows : table.Shows sketch) (entry : TypeInfo) (after : Sketch)
    {description : TypeDescription} (fresh : entry.name ∉ table.types.map TypeInfo.name)
    (isKind : table.describedKind? entry.kind = some description)
    (base : after.base.Nodup) (methods : after.methods = sketch.methods)
    (resolved : ∀ text ∈ after.written, Text.Resolves after.base text)
    (stands : ∀ name other, after.Stands name other ↔
      sketch.Stands name other ∨ name = entry.name ∧ other = description) :
    { table with types := table.types ++ [entry] }.Shows after ∧
      table.Stays { table with types := table.types ++ [entry] } := by
  have stays : table.Stays { table with types := table.types ++ [entry] } := by
    refine ⟨fun {type name} isName => ?_, List.prefix_rfl, List.prefix_rfl⟩
    obtain ⟨info, isInfo, rfl⟩ := exists_getElem?_of_typeName? isName
    refine typeName?_of_getElem? ?_
    rw [List.getElem?_append_left (List.getElem?_eq_some_iff.mp isInfo).1, isInfo]
  refine ⟨⟨?_, base, shows.stays.trans stays, fun found => ?_, fun here => ?_, resolved, ?_⟩, stays⟩
  · rw [List.map_append, List.map_singleton]
    refine List.nodup_append.mpr ⟨shows.names, by simp, fun name member _ last same => ?_⟩
    exact fresh (List.mem_singleton.mp last ▸ same ▸ member)
  · rcases getElem?_concat_cases found with earlier | ⟨-, rfl⟩
    · obtain ⟨answer, isAnswer, here⟩ := shows.described earlier
      exact ⟨answer, stays.describedKind? isAnswer, (stands _ _).mpr (.inl here)⟩
    · exact ⟨description, stays.describedKind? isKind, (stands _ _).mpr (.inr ⟨rfl, rfl⟩)⟩
  · rw [List.map_append]
    rcases (stands _ _).mp here with earlier | ⟨rfl, -⟩
    · exact List.mem_append_left _ (shows.complete earlier)
    · exact List.mem_append_right _ List.mem_cons_self
  · rw [methods]
    exact Stays.mapM (fun _ _ => stays.qualified?) shows.methods

/-! ## Resolving -/

theorem pushType_run (entry : TypeInfo) : pushType entry table =
    (.ok table.types.length, { table with types := table.types ++ [entry] }) :=
  rfl

theorem typeName?_push (entry : TypeInfo) :
    { table with types := table.types ++ [entry] }.typeName? table.types.length =
      some entry.name :=
  typeName?_of_getElem? List.getElem?_concat_length

private theorem Shows.write_known (shows : table.Shows sketch) {text : String}
    (isKnown : Text.trim text ∈ table.types.map TypeInfo.name) :
    Text.Resolves sketch.base text ∧ table.Shows (sketch.write text) := by
  obtain ⟨type, isName⟩ := mem_names_iff.mp isKnown
  obtain ⟨_, _, _, _, stands⟩ := shows.stands_of_typeName? isName
  have ofBase : Text.trim text ∈ sketch.base →
      Text.Resolves sketch.base text ∧ ∀ name, Text.Mentions sketch.base text name →
        name ∉ sketch.base →
          ∃ earlier ∈ sketch.written, Text.Mentions sketch.base earlier name := by
    intro isBase
    exact ⟨.known isBase, fun name mentions isNew =>
      absurd (mentions.eq_of_known isBase ▸ isBase) isNew⟩
  have ofWritten : ∀ earlier ∈ sketch.written,
      Text.Mentions sketch.base earlier (Text.trim text) →
      Text.Resolves sketch.base text ∧ ∀ name, Text.Mentions sketch.base text name →
        name ∉ sketch.base →
          ∃ earlier ∈ sketch.written, Text.Mentions sketch.base earlier name := by
    intro earlier isWritten mentions
    exact ⟨(mentions.resolves (shows.resolved earlier isWritten)).of_trim, fun name inner _ =>
      ⟨earlier, isWritten, mentions.trans inner.to_trim⟩⟩
  obtain ⟨resolves, mentioned⟩ : Text.Resolves sketch.base text ∧
      ∀ name, Text.Mentions sketch.base text name → name ∉ sketch.base →
        ∃ earlier ∈ sketch.written, Text.Mentions sketch.base earlier name := by
    cases stands with
    | initial found =>
        exact ofBase (List.mem_append_left _ (Sketch.mem_names_of_described? found))
    | declared member isName =>
        exact ofBase (List.mem_append_right _ (isName ▸ List.mem_map_of_mem member))
    | array isWritten mentions => exact ofWritten _ isWritten mentions
  refine ⟨resolves, shows.congr shows.base rfl ?_ fun name description => ?_⟩
  · intro other isWritten
    rcases List.mem_append.mp isWritten with earlier | last
    · exact shows.resolved other earlier
    · exact List.mem_singleton.mp last ▸ resolves
  · rw [Sketch.stands_write_iff]
    refine ⟨fun stands => ?_, .inl⟩
    obtain stands | ⟨mentions, isNew, inner, isArray, rfl⟩ := stands
    · exact stands
    · obtain ⟨earlier, isWritten, mentions⟩ := mentioned name mentions isNew
      exact .array isWritten mentions isNew isArray

private theorem Shows.write_array (shows : table.Shows sketch) {text inner : String}
    {element : TypeId} (isNew : Text.trim text ∉ sketch.base)
    (isArray : Text.stripBrackets? (Text.trim text) = some inner) (nonempty : inner ≠ "")
    (resolves : Text.Resolves sketch.base inner)
    (shows' : later.Shows (sketch.write inner)) (absent : table.find? (Text.trim text) = none)
    (isElement : later.typeName? element = some (Text.trim inner)) :
    let entry : TypeInfo := ⟨Text.trim text, .array element⟩
    { later with types := later.types ++ [entry] }.Shows (sketch.write text) ∧
      later.Stays { later with types := later.types ++ [entry] } := by
  have isKind : later.describedKind? (.array element) = some (.array (Text.trim inner)) := by
    simp [describedKind?, isElement]
  have fresh : Text.trim text ∉ later.types.map TypeInfo.name := by
    intro member
    obtain ⟨type, isName⟩ := mem_names_iff.mp member
    obtain ⟨_, _, _, _, stands⟩ := shows'.stands_of_typeName? isName
    rcases Sketch.stands_write_iff.mp stands with earlier | ⟨mentions, -⟩
    · exact find?_eq_none_iff.mp absent (shows.complete earlier)
    · have shorter := mentions.length_le
      have := Text.length_trim_le inner
      have := Text.length_stripBrackets?_lt isArray
      omega
  have resolved : ∀ other ∈ (sketch.write text).written, Text.Resolves sketch.base other := by
    intro other isWritten
    rcases List.mem_append.mp isWritten with earlier | last
    · exact shows.resolved other earlier
    · rw [List.mem_singleton.mp last]
      exact .array isNew isArray nonempty resolves
  refine shows'.push ⟨Text.trim text, .array element⟩ (sketch.write text) fresh isKind shows.base
    rfl resolved fun name description => ?_
  rw [Sketch.stands_write_iff, Sketch.stands_write_iff, Text.mentions_iff_of_array isNew isArray]
  constructor
  · rintro (stands | ⟨rfl | mentions, isNew', inner', isArray', rfl⟩)
    · exact .inl (.inl stands)
    · cases isArray.symm.trans isArray'
      exact .inr ⟨rfl, rfl⟩
    · exact .inl (.inr ⟨mentions, isNew', inner', isArray', rfl⟩)
  · rintro ((stands | ⟨mentions, isNew', inner', isArray', rfl⟩) | ⟨rfl, rfl⟩)
    · exact .inl stands
    · exact .inr ⟨.inr mentions, isNew', inner', isArray', rfl⟩
    · exact .inr ⟨.inl rfl, isNew, inner, isArray, rfl⟩

private theorem resolveWithin_decides {depth : Nat} {text : String} (enough : text.length < depth)
    (shows : table.Shows sketch) :
    Decides (resolveWithin depth text) table (Text.Resolves sketch.base text) fun id after =>
      after.Shows (sketch.write text) ∧ table.Stays after ∧
        after.typeName? id = some (Text.trim text) := by
  induction depth generalizing text with
  | zero => omega
  | succ depth ih =>
      unfold resolveWithin
      refine .bind_get ?_
      cases found : table.find? (Text.trim text) with
      | some known =>
          have isName := (find?_eq_some_iff shows.names).mp found
          obtain ⟨resolves, shows'⟩ := shows.write_known (mem_names_iff.mpr ⟨known, isName⟩)
          exact (Decides.pure ⟨shows', .refl table, isName⟩).congr (by simp [resolves])
      | none =>
          have isNew : Text.trim text ∉ sketch.base :=
            fun isBase => find?_eq_none_iff.mp found (shows.mem_names_of_base isBase)
          cases isArray : Text.stripBrackets? (Text.trim text) with
          | none =>
              have refused : ¬Text.Resolves sketch.base text := by
                intro resolves
                cases resolves with
                | known isKnown => exact isNew isKnown
                | array _ isArray' => cases isArray.symm.trans isArray'
              dsimp only
              split
              · exact (Decides.fail _).congr (by simp [refused])
              · exact (Decides.fail _).congr (by simp [refused])
          | some inner =>
              dsimp only
              split
              · next isEmpty =>
                  refine (Decides.fail _).congr ⟨False.elim, fun resolves => ?_⟩
                  cases resolves with
                  | known isKnown => exact isNew isKnown
                  | array _ isArray' nonempty =>
                      cases isArray.symm.trans isArray'
                      exact nonempty (by simpa using isEmpty)
              · next nonempty =>
                  have nonempty : inner ≠ "" := by simpa using nonempty
                  have shorter : inner.length < depth := by
                    have := Text.length_trim_le text
                    have := Text.length_stripBrackets?_lt isArray
                    omega
                  rw [Text.resolves_iff_of_array isNew isArray nonempty]
                  constructor
                  · intro resolves
                    obtain ⟨element, between, run, shows', stays, isElement⟩ :=
                      (ih shorter).succeeds resolves
                    obtain ⟨shows'', stays'⟩ := shows.write_array isNew isArray nonempty resolves
                      shows' found isElement
                    refine ⟨_, _, ?_, shows'', stays.trans stays', typeName?_push _⟩
                    rw [run_bind, run]
                    exact pushType_run _
                  · intro refused
                    obtain ⟨failure, after, run⟩ := (ih shorter).fails refused
                    exact ⟨failure, after, by rw [run_bind, run]⟩

theorem resolveType_decides (shows : table.Shows sketch) (text : String) :
    Decides (resolveType text) table (Text.Resolves sketch.base text) fun id after =>
      after.Shows (sketch.write text) ∧ table.Stays after ∧
        after.typeName? id = some (Text.trim text) :=
  resolveWithin_decides (Nat.lt_succ_self _) shows

/-! ## Changing a class -/

theorem types_modify_cases {change : ClassInfo → ClassInfo} {type other : TypeId}
    {info : TypeInfo} {className : String} {before : ClassInfo}
    (isClass : table.types[type]? = some ⟨className, .declared before⟩)
    (found : (table.types.modify type fun info => match info.kind with
      | .declared classInfo => { info with kind := .declared (change classInfo) }
      | _ => info)[other]? = some info) :
    other = type ∧ info = ⟨className, .declared (change before)⟩ ∨
      other ≠ type ∧ table.types[other]? = some info := by
  rw [List.getElem?_modify] at found
  by_cases same : type = other
  · subst same
    rw [isClass] at found
    exact .inl ⟨rfl, by simpa using found.symm⟩
  · exact .inr ⟨Ne.symm same, by simpa [same] using found⟩

theorem Shows.exists_class (shows : table.Shows sketch) {type : TypeId}
    {declared : Declaration.Class} (member : declared ∈ sketch.classes)
    (isName : table.typeName? type = some declared.name) :
    ∃ info, table.types[type]? = some ⟨declared.name, .declared info⟩ ∧
      table.describedClass? info = some (sketch.state declared.name) := by
  obtain ⟨kind, description, isThere, isDescription, stands⟩ := shows.stands_of_typeName? isName
  cases stands.unique shows.base (.declared member rfl)
  cases kind with
  | primitive _ => cases isDescription
  | array _ =>
      obtain ⟨_, _, same⟩ := Option.map_eq_some_iff.mp isDescription
      cases same
  | declared info =>
      obtain ⟨_, here, same⟩ := Option.map_eq_some_iff.mp isDescription
      cases same
      exact ⟨info, isThere, here⟩

theorem Shows.modify (shows : table.Shows sketch) {type : TypeId} {declared : Declaration.Class}
    (member : declared ∈ sketch.classes) (isName : table.typeName? type = some declared.name)
    {change : ClassInfo → ClassInfo} (change' : ClassDescription → ClassDescription)
    {methods : List Method} {fields : List Field} {listed : List (String × String)}
    (isLater : later = ⟨table.types.modify type fun info => match info.kind with
      | .declared classInfo => { info with kind := .declared (change classInfo) }
      | _ => info, methods, fields⟩)
    (moreMethods : table.methods <+: methods) (moreFields : table.fields <+: fields)
    (agrees : table.Stays later → ∀ info description,
      later.describedClass? info = some description →
      later.describedClass? (change info) = some (change' description))
    (isListed : table.Stays later → methods.mapM later.qualified? =
      some (("Object", "clone") :: listed)) :
    later.Shows { sketch.change declared.name change' with methods := listed } ∧
      table.Stays later := by
  obtain ⟨info, isThere, isDescribed⟩ := shows.exists_class member isName
  have names : later.types.map TypeInfo.name = table.types.map TypeInfo.name :=
    isLater ▸ names_modify table.types type
  have stays : table.Stays later := by
    refine ⟨fun {other name} isOther => ?_, isLater ▸ moreMethods, isLater ▸ moreFields⟩
    have look : (table.types.map TypeInfo.name)[other]? = some name := by
      rw [List.getElem?_map]
      exact isOther
    rw [← names, List.getElem?_map] at look
    exact look
  refine ⟨⟨names ▸ shows.names, shows.base, shows.stays.trans stays, fun {other entry} found => ?_,
    fun stands => ?_, shows.resolved, ?_⟩, stays⟩
  · rw [isLater] at found
    obtain ⟨rfl, rfl⟩ | ⟨different, earlier⟩ := types_modify_cases isThere found
    · have changed := agrees stays info _ (stays.describedClass? isDescribed)
      refine ⟨.declared (change' (sketch.state declared.name)), ?_, ?_⟩
      · simp [describedKind?, changed]
      · have same : change' (sketch.state declared.name) = Function.update sketch.state
            declared.name (change' (sketch.state declared.name)) declared.name := by
          rw [Function.update_self]
        rw [same]
        exact .declared member rfl
    · obtain ⟨description, isDescription, stands⟩ := shows.described earlier
      refine ⟨description, stays.describedKind? isDescription, stands.change_of_ne fun same => ?_⟩
      have isName' := typeName?_of_getElem? earlier
      rw [same] at isName'
      exact different (typeName?_unique shows.names isName' isName)
  · obtain ⟨before, earlier⟩ := stands.of_change
    exact names ▸ shows.complete earlier
  · rw [show later.methods = methods from isLater ▸ rfl]
    exact isListed stays

theorem requireClass_of_getElem? {type : TypeId} {className : String} {info : ClassInfo}
    (isThere : table.types[type]? = some ⟨className, .declared info⟩) :
    requireClass type table = (.ok info, table) := by
  unfold requireClass
  simp only [run_bind, run_get, isThere, run_inRange_some]
  rfl

theorem setClass_decides (shows : table.Shows sketch) {type : TypeId}
    {declared : Declaration.Class} (member : declared ∈ sketch.classes)
    (isName : table.typeName? type = some declared.name)
    {change : ClassInfo → ClassInfo} {change' : ClassDescription → ClassDescription}
    (agrees : ∀ {later : TypeTable}, table.Stays later → ∀ info description,
      later.describedClass? info = some description →
      later.describedClass? (change info) = some (change' description)) :
    Decides (do let _ ← requireClass type; setClass type change) table True fun _ after =>
      after.Shows (sketch.change declared.name change') ∧ table.Stays after := by
  obtain ⟨info, isThere, _⟩ := shows.exists_class member isName
  refine .bind_run (requireClass_of_getElem? isThere) (.modify ?_)
  exact shows.modify member isName change' rfl List.prefix_rfl List.prefix_rfl agrees fun stays =>
    Stays.mapM (fun _ _ => stays.qualified?) shows.methods

theorem setSuperclass_decides (shows : table.Shows sketch) {type superclass : TypeId}
    {declared : Declaration.Class} (member : declared ∈ sketch.classes)
    (isName : table.typeName? type = some declared.name) {name : String}
    (isSuper : table.typeName? superclass = some name) :
    Decides (setSuperclass type superclass) table
      (∃ description, sketch.Stands name (.declared description) ∧
        description.isInterface = false) fun _ after =>
      after.Shows (sketch.change declared.name fun description =>
        { description with superclass := some name }) ∧ table.Stays after := by
  obtain ⟨kind, answer, isThere, isAnswer, stands⟩ := shows.stands_of_typeName? isSuper
  have refused : (∀ description, answer = .declared description →
      description.isInterface = true) → ¬∃ description, sketch.Stands name (.declared description) ∧
        description.isInterface = false := by
    rintro all ⟨description, stands', isClass⟩
    rw [all description (stands.unique shows.base stands')] at isClass
    cases isClass
  refine .bind_get (.bind_inRange isThere ?_)
  cases kind with
  | primitive type =>
      cases isAnswer
      exact (Decides.fail _).congr (iff_of_false id (refused fun _ same => by cases same))
  | array element =>
      obtain ⟨_, _, rfl⟩ := Option.map_eq_some_iff.mp isAnswer
      exact (Decides.fail _).congr (iff_of_false id (refused fun _ same => by cases same))
  | declared info =>
      obtain ⟨description, isDescription, rfl⟩ := Option.map_eq_some_iff.mp isAnswer
      obtain ⟨_, _, isInterface, _⟩ := describedClass?_eq_some.mp isDescription
      obtain ⟨_, _, here, _, _, _⟩ := info
      cases here with
      | true =>
          refine (Decides.fail _).congr (iff_of_false id (refused fun _ same => ?_))
          cases same
          exact isInterface.symm
      | false =>
          refine (setClass_decides shows member isName fun stays info description found => ?_).congr
            (iff_of_true trivial ⟨description, stands, isInterface.symm⟩)
          rw [describedClass?_eq_some] at found ⊢
          exact ⟨by simp [stays.names isSuper], found.2⟩

theorem addInterface_decides (shows : table.Shows sketch) {type interface : TypeId}
    {declared : Declaration.Class} (member : declared ∈ sketch.classes)
    (isName : table.typeName? type = some declared.name) {name : String}
    (isInterface : table.typeName? interface = some name) :
    Decides (addInterface type interface) table
      (∃ description, sketch.Stands name (.declared description)) fun _ after =>
      after.Shows (sketch.change declared.name fun description =>
        { description with interfaces := description.interfaces ++ [name] }) ∧
        table.Stays after := by
  obtain ⟨kind, answer, isThere, isAnswer, stands⟩ := shows.stands_of_typeName? isInterface
  have refused : (∀ description, answer ≠ .declared description) →
      ¬∃ description, sketch.Stands name (.declared description) := by
    rintro all ⟨description, stands'⟩
    exact all description (stands.unique shows.base stands')
  refine .bind_get (.bind_inRange isThere ?_)
  cases kind with
  | primitive type =>
      cases isAnswer
      exact (Decides.fail _).congr (iff_of_false id (refused fun _ same => by cases same))
  | array element =>
      obtain ⟨_, _, rfl⟩ := Option.map_eq_some_iff.mp isAnswer
      exact (Decides.fail _).congr (iff_of_false id (refused fun _ same => by cases same))
  | declared info =>
      obtain ⟨description, isDescription, rfl⟩ := Option.map_eq_some_iff.mp isAnswer
      refine (setClass_decides shows member isName fun stays info description found => ?_).congr
        (iff_of_true trivial ⟨description, stands⟩)
      rw [describedClass?_eq_some] at found ⊢
      obtain ⟨superclass, interfaces, rest⟩ := found
      refine ⟨superclass, ?_, rest⟩
      rw [mapM_eq_some_iff] at interfaces ⊢
      exact List.rel_append interfaces (.cons (stays.names isInterface) .nil)

/-! ## Adding members -/

theorem any_iff_of_mapM {α β : Type} {look : α → Option β} {test : α → Bool} {good : β → Prop}
    {items : List α} {values : List β} (found : items.mapM look = some values)
    (agrees : ∀ item value, look item = some value → (test item = true ↔ good value)) :
    items.any test = true ↔ ∃ value ∈ values, good value := by
  rw [mapM_eq_some_iff] at found
  induction found with
  | nil => simp
  | cons here _ ih => simp [agrees _ _ here, ih]

theorem mapM_concat {α β : Type} {look : α → Option β} {items : List α} {item : α}
    {values : List β} {value : β} (found : items.mapM look = some values)
    (here : look item = some value) : (items ++ [item]).mapM look = some (values ++ [value]) := by
  rw [mapM_eq_some_iff] at found ⊢
  exact List.rel_append found (.cons here .nil)

theorem addField_decides (shows : table.Shows sketch) {type fieldType : TypeId}
    {declared : Declaration.Class} (member : declared ∈ sketch.classes)
    (isName : table.typeName? type = some declared.name) {name typeName : String}
    {isStatic : Bool} (isType : table.typeName? fieldType = some typeName) :
    Decides (addField type name fieldType isStatic) table
      (name ∉ (sketch.state declared.name).fields.map FieldDescription.name) fun _ after =>
      after.Shows (sketch.change declared.name fun description =>
        { description with fields := description.fields ++ [⟨name, typeName, isStatic⟩] }) ∧
        table.Stays after := by
  obtain ⟨info, isThere, isDescribed⟩ := shows.exists_class member isName
  have taken : (info.fields.any fun id => (table.fields[id]?).any (·.name = name)) = true ↔
      name ∈ (sketch.state declared.name).fields.map FieldDescription.name := by
    rw [List.mem_map]
    refine any_iff_of_mapM (describedClass?_eq_some.mp isDescribed).2.2.2.1 fun id field found => ?_
    unfold describedField? at found
    simp only [Option.bind_eq_bind, Option.bind_eq_some_iff] at found
    obtain ⟨entry, isEntry, _, _, same⟩ := found
    cases same
    simp [isEntry]
  unfold addField
  refine .bind_run (requireClass_of_getElem? isThere) (.bind_get ?_)
  split
  · next isTaken =>
      refine Decides.congr (.bind_inRange isName (.fail _)) (iff_of_false id fun free => ?_)
      exact free (taken.mp isTaken)
  · next free =>
      refine ⟨fun _ => ⟨_, _, rfl, ?_⟩, fun isTaken => absurd (fun here => free (taken.mpr here))
        isTaken⟩
      refine shows.modify member isName (fun description =>
        { description with fields := description.fields ++ [⟨name, typeName, isStatic⟩] }) rfl
        List.prefix_rfl (List.prefix_append _ _) (fun stays other description found => ?_)
        fun stays => Stays.mapM (fun _ _ => stays.qualified?) shows.methods
      rw [describedClass?_eq_some] at found ⊢
      obtain ⟨superclass, interfaces, isInterface, fields, rest⟩ := found
      refine ⟨superclass, interfaces, isInterface, mapM_concat fields ?_, rest⟩
      simp [describedField?, stays.names isType]

theorem addMethod_decides (shows : table.Shows sketch) {method : Method}
    {declared : Declaration.Class} (member : declared ∈ sketch.classes)
    (isName : table.typeName? method.declaring = some declared.name) {params : List String}
    {returns : Option String} (areParams : method.params.mapM table.typeName? = some params)
    (isReturns : method.returns.mapM table.typeName? = some returns) :
    Decides (addMethod method) table
      (method.name ∉ (sketch.state declared.name).methods.map MethodDescription.name)
      fun _ after =>
      after.Shows { sketch.change declared.name (fun description =>
        { description with
          methods := description.methods ++ [⟨method.name, params, returns,
            method.isStatic || method.name = classInitializerName, method.isNative,
            method.isAbstract⟩]
          classInitializer := if method.name = classInitializerName then some method.name
            else description.classInitializer }) with
        methods := sketch.methods ++ [(declared.name, method.name)] } ∧ table.Stays after := by
  obtain ⟨info, isThere, isDescribed⟩ := shows.exists_class member isName
  have taken : (info.methods.any fun id => (table.methods[id]?).any (·.name = method.name)) = true ↔
      method.name ∈ (sketch.state declared.name).methods.map MethodDescription.name := by
    rw [List.mem_map]
    refine any_iff_of_mapM (describedClass?_eq_some.mp isDescribed).2.2.2.2.1 fun id _ found => ?_
    unfold describedMethod? at found
    simp only [Option.bind_eq_bind, Option.bind_eq_some_iff] at found
    obtain ⟨entry, isEntry, _, _, _, _, same⟩ := found
    cases same
    simp [isEntry]
  unfold addMethod
  refine .bind_run (requireClass_of_getElem? isThere) (.bind_get ?_)
  split
  · next isTaken =>
      refine Decides.congr (.bind_inRange isName (.fail _)) (iff_of_false id fun free => ?_)
      exact free (taken.mp isTaken)
  · next free =>
      refine ⟨fun _ => ⟨_, _, rfl, ?_⟩, fun isTaken => absurd (fun here => free (taken.mpr here))
        isTaken⟩
      refine shows.modify member isName _ rfl (List.prefix_append _ _) List.prefix_rfl
        (fun stays other description found => ?_) fun stays => ?_
      · rw [describedClass?_eq_some] at found ⊢
        obtain ⟨superclass, interfaces, isInterface, fields, methods, initializer⟩ := found
        refine ⟨superclass, interfaces, isInterface, fields, mapM_concat methods ?_, ?_⟩
        · have areParams := Stays.mapM (fun _ _ => stays.names) areParams
          have isReturns := Stays.option_mapM (fun _ _ => stays.names) isReturns
          simp [describedMethod?, areParams, isReturns]
        · by_cases isInitializer : method.name = classInitializerName
          · simp [Method.isClassInitializer, isInitializer, methodName?]
          · simpa [Method.isClassInitializer, isInitializer] using initializer
      · refine mapM_concat (Stays.mapM (fun _ _ => stays.qualified?) shows.methods) ?_
        simp [qualified?, stays.names isName]

end TypeTable

end ObjectFlow
