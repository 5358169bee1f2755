import ObjectFlow.Proofs.Hierarchy.Sketching

/-!
# Which programs have a hierarchy

A program is accepted exactly if the names of its classes are new, its
supertypes are classes, the types of its members can be resolved, and no class
has two fields or two methods of one name.  Each condition looks at one class
and at the names of all of them.  The hierarchy of an accepted program says of
each class what its declaration says, and has the array types that some text
mentions.
-/

namespace ObjectFlow.Declaration

open TypeTable

/-! ## What a declaration says -/

def Field.description (field : Field) : FieldDescription :=
  ⟨field.name, Text.trim field.type, field.isStatic⟩

def Method.returned? (method : Method) : Option String :=
  method.returns.filter (· ≠ "void")

def Method.description (method : Method) : MethodDescription :=
  ⟨method.name, method.params.map fun param => Text.trim param.type,
    method.returned?.map Text.trim, method.isStatic || method.name = classInitializerName,
    method.isNative, method.isAbstract⟩

namespace Class

def outline (declared : Class) : ClassDescription :=
  ⟨none, [], declared.isInterface, [], [], none⟩

def withSupertypes (declared : Class) (interfaces : List String) : ClassDescription :=
  { declared.outline with
    superclass := declared.superclass.map Text.trim
    interfaces := interfaces.map Text.trim }

def withMembers (declared : Class) (fields : List Field) (methods : List Method) :
    ClassDescription :=
  { declared.withSupertypes (Text.splitList declared.interfaces) with
    fields := fields.map Field.description
    methods := methods.map Method.description
    classInitializer :=
      if classInitializerName ∈ methods.map Method.name then some classInitializerName
      else none }

def description (declared : Class) : ClassDescription :=
  { declared.withMembers declared.fields declared.methods with
    superclass := some ((declared.superclass.map Text.trim).getD "Object") }

end Class

/-! ## What a declaration mentions -/

def dimensionTexts : (dims : Nat) → String → List String
  | 0, text => [text]
  | dims + 1, text => text :: dimensionTexts dims (text ++ "[]")

def statementTexts (element : Element) (operands : Operands) : List String :=
  operands.type.toList.flatMap
    (dimensionTexts (if element = .newArray then operands.dims.getD 1 else 0))

namespace Method

def bodyTexts (method : Method) : List String :=
  method.locals.map Local.type ++ (method.catches.map Catch.type ++
    method.statements.flatMap fun entry => statementTexts entry.1 entry.2)

def texts (method : Method) : List String :=
  method.params.map Parameter.type ++ (method.returned?.toList ++ method.bodyTexts)

end Method

namespace Class

def supertypeTexts (declared : Class) : List String :=
  declared.superclass.toList ++ Text.splitList declared.interfaces

def memberTexts (declared : Class) : List String :=
  declared.fields.map Field.type ++ declared.methods.flatMap Method.texts

end Class

def Program.texts (program : Program) : List String :=
  program.classes.flatMap Class.supertypeTexts ++ program.classes.flatMap Class.memberTexts

/-- The methods of a program with the names of their classes, in the order of their ids. -/
def Program.methodNames (program : Program) : List (String × String) :=
  program.classes.flatMap fun declared =>
    declared.methods.map fun method => (declared.name, method.name)

/-! ## What is accepted -/

def baseNames (classes : List Class) : List String :=
  TypeTable.initial.types.map TypeInfo.name ++ classes.map Class.name

def ClassNamed (classes : List Class) (name : String) (isInterface : Bool) : Prop :=
  name ∈ ["Object", "Throwable"] ∧ isInterface = false ∨
    ∃ declared ∈ classes, declared.name = name ∧ declared.isInterface = isInterface

structure Class.Acceptable (classes : List Class) (declared : Class) : Prop where
  superclass : ∀ text ∈ declared.superclass, ClassNamed classes (Text.trim text) false
  interfaces : ∀ text ∈ Text.splitList declared.interfaces,
    ∃ isInterface, ClassNamed classes (Text.trim text) isInterface
  members : ∀ text ∈ declared.memberTexts, Text.Resolves (baseNames classes) text
  fields : (declared.fields.map Field.name).Nodup
  methods : (declared.methods.map Method.name).Nodup

structure Program.Acceptable (program : Program) : Prop where
  names : (baseNames program.classes).Nodup
  named : ∀ declared ∈ program.classes,
    Text.stripBrackets? declared.name = none ∧ declared.name ≠ ""
  classes : ∀ declared ∈ program.classes, declared.Acceptable program.classes

/-! ## Resolving texts -/

def Writes {α : Type} (computation : Build α) (texts : List String) : Prop :=
  ∀ (table : TypeTable) (sketch : Sketch), table.Shows sketch →
    Decides computation table (∀ text ∈ texts, Text.Resolves sketch.base text) fun _ after =>
      after.Shows { sketch with written := sketch.written ++ texts } ∧ table.Stays after

namespace Writes

variable {α β : Type} {computation : Build α} {texts texts' : List String}

theorem resolve (text : String) : Writes (do let _ ← resolveType text) [text] := by
  intro table sketch shows
  refine ((resolveType_decides shows text).bind fun id after here =>
    .pure (show _ from ⟨here.1, here.2.1⟩)).congr ?_
  simp

theorem bind {next : α → Build β} (first : Writes computation texts)
    (rest : ∀ value, Writes (next value) texts') :
    Writes (computation >>= next) (texts ++ texts') := by
  intro table sketch shows
  have both := (first table sketch shows).bind fun value between here =>
    (rest value between _ here.1).mono fun _ after last =>
      show after.Shows { sketch with written := sketch.written ++ (texts ++ texts') } ∧
          table.Stays after from
        ⟨by simpa using last.1, here.2.trans last.2⟩
  refine both.congr ?_
  simp only [List.mem_append, or_imp, forall_and]
  exact Iff.rfl

private theorem forM {items : List β} {body : β → Build PUnit} {texts : β → List String}
    (each : ∀ item ∈ items, Writes (body item) (texts item)) :
    Writes (items.forM body) (items.flatMap texts) := by
  induction items with
  | nil =>
      intro table sketch shows
      refine Decides.congr (.pure ⟨?_, .refl table⟩) (by simp)
      simpa using shows
  | cons item items ih =>
      rw [List.flatMap_cons]
      exact bind (each item List.mem_cons_self) fun _ =>
        ih fun other member => each other (List.mem_cons_of_mem _ member)

private theorem dimensions (dims : Nat) (text : String) :
    Writes (resolveDimensions dims text) (dimensionTexts dims text) := by
  induction dims generalizing text with
  | zero => exact resolve text
  | succ dims ih =>
      intro table sketch shows
      have both := (resolveType_decides shows text).bind fun id between here =>
        (ih (text ++ "[]") between _ here.1).mono fun _ after last =>
          show after.Shows
              { sketch with written := sketch.written ++ dimensionTexts (dims + 1) text } ∧
              table.Stays after from
            ⟨by simpa [Sketch.write, dimensionTexts] using last.1, here.2.1.trans last.2⟩
      refine both.congr ?_
      simp only [dimensionTexts, List.forall_mem_cons]
      exact Iff.rfl

private theorem statement (element : Element) (operands : Operands) :
    Writes (operands.type.forM (resolveDimensions
      (if element = .newArray then operands.dims.getD 1 else 0)))
      (statementTexts element operands) := by
  unfold statementTexts
  cases operands.type with
  | none =>
      intro table sketch shows
      refine Decides.congr (.pure ⟨?_, .refl table⟩) (by simp)
      simpa using shows
  | some text =>
      rw [Option.toList_some, List.flatMap_singleton]
      exact dimensions _ text

private theorem body (method : Method) : Writes (do
      method.locals.forM fun declared => do
        let _ ← resolveType declared.type
      method.catches.forM fun declared => do
        let _ ← resolveType declared.type
      method.statements.forM fun entry => entry.2.type.forM (resolveDimensions
        (if entry.1 = .newArray then entry.2.dims.getD 1 else 0))) method.bodyTexts := by
  rw [Method.bodyTexts, List.map_eq_flatMap, List.map_eq_flatMap]
  refine bind (forM fun declared _ => resolve declared.type) fun _ => ?_
  refine bind (forM fun declared _ => resolve declared.type) fun _ => ?_
  exact forM fun entry _ => statement entry.1 entry.2

end Writes

private theorem params_decides {table : TypeTable} {sketch : Sketch} (shows : table.Shows sketch)
    (params : List Parameter) :
    Decides (params.mapM fun param => resolveType param.type) table
      (∀ param ∈ params, Text.Resolves sketch.base param.type) fun ids after =>
      after.Shows { sketch with written := sketch.written ++ params.map Parameter.type } ∧
        table.Stays after ∧
        ids.mapM after.typeName? = some (params.map fun param => Text.trim param.type) := by
  refine (Decides.mapM (fun done ids later =>
    later.Shows { sketch with written := sketch.written ++ done.map Parameter.type } ∧
      table.Stays later ∧
      ids.mapM later.typeName? = some (done.map fun param => Text.trim param.type))
    (fun done param rest _ ids later here => ?_) ⟨?_, .refl table, rfl⟩).congr forall_split_iff
  · refine (resolveType_decides here.1 param.type).mono fun id last here' => ⟨?_, ?_, ?_⟩
    · simpa [Sketch.write] using here'.1
    · exact here.2.1.trans here'.2.1
    · simpa using mapM_concat (Stays.mapM (fun _ _ => here'.2.1.names) here.2.2) here'.2.2
  · simpa using shows

private theorem returned_decides {table : TypeTable} {sketch : Sketch} (shows : table.Shows sketch)
    (method : Method) :
    Decides (resolveReturn method.returns) table
      (∀ text ∈ method.returned?, Text.Resolves sketch.base text) fun id after =>
      after.Shows { sketch with written := sketch.written ++ method.returned?.toList } ∧
        table.Stays after ∧
        id.mapM after.typeName? = some (method.returned?.map Text.trim) := by
  unfold resolveReturn Method.returned?
  generalize method.returns = returns
  split
  · refine Decides.congr (.pure ⟨?_, .refl table, rfl⟩) (by simp)
    simpa using shows
  · refine Decides.congr (.pure ⟨?_, .refl table, rfl⟩) (by simp)
    simpa [Option.filter_some] using shows
  · next text other =>
      have kept : (some text).filter (fun text => decide (text ≠ "void")) = some text := by
        simpa using other
      rw [kept]
      refine ((resolveType_decides shows text).bind fun id after here =>
        .pure ⟨here.1, here.2.1, ?_⟩).congr (by simp)
      simp [here.2.2]

/-! ## Completing a class -/

end ObjectFlow.Declaration

namespace ObjectFlow.Sketch

def advance (sketch : Sketch) (name : String) (description : ClassDescription)
    (texts : List String) (methods : List (String × String)) : Sketch :=
  { classes := sketch.classes
    state := Function.update sketch.state name description
    written := sketch.written ++ texts
    methods := sketch.methods ++ methods }

def Faithful (sketch : Sketch) : Prop :=
  ∀ declared ∈ sketch.classes, (sketch.state declared.name).isInterface = declared.isInterface

variable {sketch : Sketch} {name : String}

@[simp] theorem advance_advance (description description' : ClassDescription)
    (texts texts' : List String) (methods methods' : List (String × String)) :
    (sketch.advance name description texts methods).advance name description' texts' methods' =
      sketch.advance name description' (texts ++ texts') (methods ++ methods') := by
  simp [advance]

@[simp] theorem state_advance (description : ClassDescription) (texts : List String)
    (methods : List (String × String)) :
    (sketch.advance name description texts methods).state name = description := by
  simp [advance]

theorem advance_self : sketch.advance name (sketch.state name) [] [] = sketch := by
  simp [advance]

theorem Faithful.advance (faithful : sketch.Faithful) {description : ClassDescription}
    (same : description.isInterface = (sketch.state name).isInterface) (texts : List String)
    (methods : List (String × String)) :
    (sketch.advance name description texts methods).Faithful := by
  intro declared member
  have before := faithful declared member
  by_cases isName : declared.name = name
  · subst isName
    rw [state_advance, same, before]
  · rw [← before]
    exact congrArg _ (Function.update_of_ne isName _ _)

theorem stands_declared_iff (faithful : sketch.Faithful) {isInterface : Bool} :
    (∃ description, sketch.Stands name (.declared description) ∧
      description.isInterface = isInterface) ↔
      Declaration.ClassNamed sketch.classes name isInterface := by
  have initial : ∀ name ∈ TypeTable.initial.types.map TypeInfo.name,
      ∀ info ∈ (TypeTable.initial.described? name).bind TypeDescription.class?,
        name ∈ ["Object", "Throwable"] ∧ info.isInterface = false := by decide
  constructor
  · rintro ⟨description, stands, rfl⟩
    generalize isKnown : TypeDescription.declared description = known at stands
    cases stands with
    | initial found =>
        refine .inl (initial name (mem_names_of_described? found) description ?_)
        rw [found, ← isKnown]
        rfl
    | declared member isName =>
        cases isKnown
        subst isName
        exact .inr ⟨_, member, rfl, (faithful _ member).symm⟩
    | array => cases isKnown
  · rintro (⟨isInitial, rfl⟩ | ⟨declared, member, rfl, rfl⟩)
    · have known : ∀ name ∈ ["Object", "Throwable"], ∃ description,
          TypeTable.initial.described? name = some (.declared description) ∧
            description.isInterface = false := by
        intro name isInitial
        rcases List.mem_cons.mp isInitial with rfl | isInitial
        · exact ⟨_, rfl, rfl⟩
        · obtain rfl := List.mem_singleton.mp isInitial
          exact ⟨_, rfl, rfl⟩
      obtain ⟨description, found, isClass⟩ := known name isInitial
      exact ⟨description, .initial found, isClass⟩
    · exact ⟨_, .declared member rfl, faithful declared member⟩

end ObjectFlow.Sketch

namespace ObjectFlow.Declaration

open TypeTable

theorem ClassNamed.mem_baseNames {classes : List Class} {name : String} {isInterface : Bool}
    (named : ClassNamed classes name isInterface) : name ∈ baseNames classes := by
  obtain ⟨isInitial, -⟩ | ⟨declared, member, rfl, -⟩ := named
  · have known : ∀ name ∈ ["Object", "Throwable"],
        name ∈ TypeTable.initial.types.map TypeInfo.name := by decide
    exact List.mem_append_left _ (known name isInitial)
  · exact List.mem_append_right _ (List.mem_map_of_mem member)

/-- The computation takes what is known of a class one step further. -/
def Completes (classes : List Class) (declared : Class) (body : TypeId → Build PUnit)
    (before after : ClassDescription) (allowed : Prop) (texts : List String)
    (methods : List (String × String)) : Prop :=
  ∀ (table : TypeTable) (sketch : Sketch) (type : TypeId), table.Shows sketch →
    sketch.classes = classes → sketch.Faithful → table.typeName? type = some declared.name →
    sketch.state declared.name = before →
    Decides (body type) table allowed fun _ later =>
      later.Shows (sketch.advance declared.name after texts methods) ∧ table.Stays later

namespace Completes

variable {classes : List Class} {declared : Class} {body body' : TypeId → Build PUnit}
  {before between after : ClassDescription} {allowed allowed' : Prop} {texts texts' : List String}
  {methods methods' : List (String × String)}

theorem congr (completes : Completes classes declared body before after allowed texts methods)
    (same : allowed ↔ allowed') :
    Completes classes declared body before after allowed' texts methods :=
  fun table sketch type shows isClasses faithful isName isBefore =>
    (completes table sketch type shows isClasses faithful isName isBefore).congr same

theorem bind (first : Completes classes declared body before between allowed texts methods)
    (same : between.isInterface = before.isInterface)
    (rest : Completes classes declared body' between after allowed' texts' methods') :
    Completes classes declared (fun type => do body type; body' type) before after
      (allowed ∧ allowed') (texts ++ texts') (methods ++ methods') := by
  intro table sketch type shows isClasses faithful isName isBefore
  refine (first table sketch type shows isClasses faithful isName isBefore).bind
    fun _ middle here => ?_
  refine (rest middle _ type here.1 isClasses (faithful.advance (isBefore ▸ same) _ _)
    (here.2.names isName) (Sketch.state_advance _ _ _)).mono fun _ later last => ?_
  exact ⟨by simpa using last.1, here.2.trans last.2⟩

private theorem nothing : Completes classes declared (fun _ => pure ⟨⟩) before before True []
    [] := by
  intro table sketch type shows isClasses faithful isName isBefore
  refine .pure ⟨?_, .refl table⟩
  rw [← isBefore, Sketch.advance_self]
  exact shows

theorem forM {β : Type} {items : List β} {body : β → TypeId → Build PUnit}
    (stateAt : List β → ClassDescription) (permits : List β → β → Prop)
    {texts : β → List String} {methods : β → List (String × String)}
    (same : ∀ done, (stateAt done).isInterface = (stateAt []).isInterface)
    (each : ∀ done item rest, items = done ++ item :: rest →
      Completes classes declared (body item) (stateAt done) (stateAt (done ++ [item]))
        (permits done item) (texts item) (methods item)) :
    Completes classes declared (fun type => items.forM fun item => body item type) (stateAt [])
      (stateAt items) (∀ done item rest, items = done ++ item :: rest → permits done item)
      (items.flatMap texts) (items.flatMap methods) := by
  intro table sketch type shows isClasses faithful isName isBefore
  refine Decides.forM (fun done later => later.Shows (sketch.advance declared.name (stateAt done)
    (done.flatMap texts) (done.flatMap methods)) ∧ table.Stays later)
    (fun done item rest split state here => ?_) ⟨?_, .refl table⟩
  · refine (each done item rest split state _ type here.1 isClasses
      (faithful.advance ((same done).trans (isBefore ▸ rfl)) _ _) (here.2.names isName)
      (Sketch.state_advance _ _ _)).mono fun _ later last => ?_
    exact ⟨by simpa using last.1, here.2.trans last.2⟩
  · simpa [← isBefore, Sketch.advance_self] using shows

theorem resolve {text : String} {next : TypeId → TypeId → Build PUnit}
    (rest : ∀ (table : TypeTable) (sketch : Sketch) (type id : TypeId), table.Shows sketch →
      sketch.classes = classes → sketch.Faithful → table.typeName? type = some declared.name →
      table.typeName? id = some (Text.trim text) → sketch.state declared.name = before →
      Decides (next type id) table allowed fun _ later =>
        later.Shows (sketch.advance declared.name after [] methods) ∧ table.Stays later) :
    Completes classes declared (fun type => do
      let id ← resolveType text
      next type id) before after (Text.Resolves (baseNames classes) text ∧ allowed) [text]
      methods := by
  intro table sketch type shows isClasses faithful isName isBefore
  subst isClasses
  refine (resolveType_decides shows text).bind fun id middle here => ?_
  refine (rest middle (sketch.write text) type id here.1 rfl faithful (here.2.1.names isName)
    here.2.2 isBefore).mono fun _ later last => ?_
  exact ⟨by simpa [Sketch.advance, Sketch.write] using last.1, here.2.1.trans last.2⟩

theorem resolves_and_iff {text : String}
    (known : allowed → Text.trim text ∈ baseNames classes) :
    Text.Resolves (baseNames classes) text ∧ allowed ↔ allowed :=
  ⟨And.right, fun is => ⟨.known (known is), is⟩⟩

private theorem superclass (member : declared ∈ classes) (text : String) :
    Completes classes declared (fun type => do
      let superclass ← resolveType text
      setSuperclass type superclass) before
      { before with superclass := some (Text.trim text) }
      (ClassNamed classes (Text.trim text) false) [text] [] := by
  refine Completes.congr (resolve fun table sketch type id shows isClasses faithful isName isSuper
    isBefore => ?_) (resolves_and_iff ClassNamed.mem_baseNames)
  subst isClasses isBefore
  refine (setSuperclass_decides shows member isName isSuper).congr
    (Sketch.stands_declared_iff faithful) |>.mono fun _ later here => ?_
  simpa [Sketch.advance, Sketch.change] using here

private theorem interface (member : declared ∈ classes) (text : String) :
    Completes classes declared (fun type => do
      let interface ← resolveType text
      addInterface type interface) before
      { before with interfaces := before.interfaces ++ [Text.trim text] }
      (∃ isInterface, ClassNamed classes (Text.trim text) isInterface) [text] [] := by
  refine Completes.congr (resolve fun table sketch type id shows isClasses faithful isName isSuper
    isBefore => ?_) (resolves_and_iff fun named => named.choose_spec.mem_baseNames)
  subst isClasses isBefore
  refine (addInterface_decides shows member isName isSuper).congr ?_ |>.mono
    fun _ later here => ?_
  · constructor
    · rintro ⟨description, stands⟩
      exact ⟨_, (Sketch.stands_declared_iff faithful).mp ⟨description, stands, rfl⟩⟩
    · rintro ⟨isInterface, named⟩
      obtain ⟨description, stands, _⟩ := (Sketch.stands_declared_iff faithful).mpr named
      exact ⟨description, stands⟩
  · simpa [Sketch.advance, Sketch.change] using here

private theorem field (member : declared ∈ classes) (field : Field) :
    Completes classes declared (fun type => do
      let fieldType ← resolveType field.type
      let _ ← addField type field.name fieldType field.isStatic) before
      { before with fields := before.fields ++ [field.description] }
      (Text.Resolves (baseNames classes) field.type ∧
        field.name ∉ before.fields.map FieldDescription.name) [field.type] [] := by
  refine resolve fun table sketch type id shows isClasses faithful isName isType isBefore => ?_
  subst isClasses isBefore
  refine (addField_decides shows member isName isType).bind (fun _ later here => .pure ?_)
    |>.congr (and_iff_left trivial)
  simpa [Sketch.advance, Sketch.change, Field.description] using here

private theorem method (member : declared ∈ classes) (method : Method) :
    Completes classes declared (fun type => declareMethod type method) before
      { before with
        methods := before.methods ++ [method.description]
        classInitializer := if method.name = classInitializerName then some method.name
          else before.classInitializer }
      ((∀ text ∈ method.texts, Text.Resolves (baseNames classes) text) ∧
        method.name ∉ before.methods.map MethodDescription.name) method.texts
      [(declared.name, method.name)] := by
  intro table sketch type shows isClasses faithful isName isBefore
  subst isClasses isBefore
  have added : ∀ (params : List TypeId) (returns : Option TypeId) (middle : TypeTable),
      middle.Shows { sketch with
        written := sketch.written ++ method.params.map Parameter.type ++
          method.returned?.toList } →
      table.Stays middle →
      params.mapM middle.typeName? = some (method.params.map fun param => Text.trim param.type) →
      returns.mapM middle.typeName? = some (method.returned?.map Text.trim) →
      Decides (do
        let _ ← addMethod ⟨type, method.name, params, returns, method.isStatic, method.isNative,
          method.isAbstract⟩
        method.locals.forM fun declared => do
          let _ ← resolveType declared.type
        method.catches.forM fun declared => do
          let _ ← resolveType declared.type
        method.statements.forM fun entry => entry.2.type.forM (resolveDimensions
          (if entry.1 = .newArray then entry.2.dims.getD 1 else 0))) middle
        (method.name ∉ (sketch.state declared.name).methods.map MethodDescription.name ∧
          ∀ text ∈ method.bodyTexts, Text.Resolves (baseNames sketch.classes) text)
        fun _ later => later.Shows (sketch.advance declared.name
          { sketch.state declared.name with
            methods := (sketch.state declared.name).methods ++ [method.description]
            classInitializer := if method.name = classInitializerName then some method.name
              else (sketch.state declared.name).classInitializer } method.texts
          [(declared.name, method.name)]) ∧ table.Stays later := by
    intro params returns middle shows' stays areParams isReturns
    have isName' := stays.names isName
    refine (addMethod_decides shows' member isName' areParams isReturns).bind
      fun _ fourth here => (Writes.body method fourth _ here.1).mono fun _ later last => ⟨?_, ?_⟩
    · simpa [Sketch.advance, Sketch.change, Method.texts, Method.description] using last.1
    · exact stays.trans (here.2.trans last.2)
  refine ((params_decides shows method.params).bind fun params second here₁ =>
    (returned_decides here₁.1 method).bind fun returns third here₂ =>
      added params returns third here₂.1 (here₁.2.1.trans here₂.2.1)
        (Stays.mapM (fun _ _ => here₂.2.1.names) here₁.2.2) here₂.2.2).congr ?_
  simp only [Method.texts, List.mem_append, or_imp, forall_and, List.mem_map,
    forall_exists_index, and_imp, forall_apply_eq_imp_iff₂, Option.mem_toList]
  constructor
  · rintro ⟨params, returned, free, body⟩
    exact ⟨⟨params, returned, body⟩, free⟩
  · rintro ⟨⟨params, returned, body⟩, free⟩
    exact ⟨params, returned, free, body⟩

theorem supertypes (member : declared ∈ classes) :
    Completes classes declared (declareSupertypes declared) declared.outline
      (declared.withMembers [] [])
      ((∀ text ∈ declared.superclass, ClassNamed classes (Text.trim text) false) ∧
        ∀ text ∈ Text.splitList declared.interfaces,
          ∃ isInterface, ClassNamed classes (Text.trim text) isInterface)
      declared.supertypeTexts [] := by
  have extend : Completes classes declared (fun type => declared.superclass.forM fun text => do
      let superclass ← resolveType text
      setSuperclass type superclass) declared.outline (declared.withSupertypes [])
      (∀ text ∈ declared.superclass, ClassNamed classes (Text.trim text) false)
      declared.superclass.toList [] := by
    unfold Class.withSupertypes
    cases declared.superclass with
    | none => exact nothing.congr (by simp)
    | some text => exact (superclass member text).congr (by simp)
  have implement : ∀ done text rest, Text.splitList declared.interfaces = done ++ text :: rest →
      Completes classes declared (fun type => do
        let interface ← resolveType text
        addInterface type interface) (declared.withSupertypes done)
        (declared.withSupertypes (done ++ [text]))
        (∃ isInterface, ClassNamed classes (Text.trim text) isInterface) [text] [] := by
    intro done text rest _
    simpa [Class.withSupertypes] using
      (interface member text : Completes _ _ _ (declared.withSupertypes done) _ _ _ _)
  have both := (extend.bind rfl (forM declared.withSupertypes _ (fun _ => rfl) implement)).congr
    (and_congr_right fun _ => forall_split_iff)
  have none : (Text.splitList declared.interfaces).flatMap (fun _ =>
      ([] : List (String × String))) = [] := by simp
  rw [List.flatMap_singleton', none] at both
  exact both

theorem members (member : declared ∈ classes) :
    Completes classes declared (declareMembers declared) (declared.withMembers [] [])
      (declared.withMembers declared.fields declared.methods)
      ((∀ text ∈ declared.memberTexts, Text.Resolves (baseNames classes) text) ∧
        (declared.fields.map Field.name).Nodup ∧ (declared.methods.map Method.name).Nodup)
      declared.memberTexts (declared.methods.map fun method => (declared.name, method.name)) := by
  have fields : ∀ done (field : Declaration.Field) rest, declared.fields = done ++ field :: rest →
      Completes classes declared (fun type => do
        let fieldType ← resolveType field.type
        let _ ← addField type field.name fieldType field.isStatic) (declared.withMembers done [])
        (declared.withMembers (done ++ [field]) [])
        (Text.Resolves (baseNames classes) field.type ∧ field.name ∉ done.map Field.name)
        [field.type] [] := by
    intro done field rest _
    simpa [Class.withMembers, Field.description] using
      (Completes.field member field : Completes _ _ _ (declared.withMembers done []) _ _ _ _)
  have methods : ∀ done (method : Declaration.Method) rest,
      declared.methods = done ++ method :: rest →
      Completes classes declared (fun type => declareMethod type method)
        (declared.withMembers declared.fields done)
        (declared.withMembers declared.fields (done ++ [method]))
        ((∀ text ∈ method.texts, Text.Resolves (baseNames classes) text) ∧
          method.name ∉ done.map Method.name) method.texts [(declared.name, method.name)] := by
    intro done method rest _
    have step : Completes classes declared _ (declared.withMembers declared.fields done) _ _ _ _ :=
      Completes.method member method
    have same : { declared.withMembers declared.fields done with
        methods := (declared.withMembers declared.fields done).methods ++ [method.description]
        classInitializer := if method.name = classInitializerName then some method.name
          else (declared.withMembers declared.fields done).classInitializer } =
        declared.withMembers declared.fields (done ++ [method]) := by
      by_cases isInitializer : method.name = classInitializerName
      · simp [Class.withMembers, isInitializer]
      · simp [Class.withMembers, isInitializer, Ne.symm isInitializer]
    rw [same] at step
    simpa [Class.withMembers, Method.description] using step
  have both := (forM (fun done => declared.withMembers done []) _ (fun _ => rfl) fields).bind rfl
    (forM (declared.withMembers declared.fields) _ (fun _ => rfl) methods)
  have none : declared.fields.flatMap (fun _ => ([] : List (String × String))) = [] := by simp
  rw [← List.map_eq_flatMap, ← List.map_eq_flatMap, none] at both
  refine both.congr ?_
  rw [forall_split_and_iff, forall_split_and_iff, ← nodup_map_iff_split, ← nodup_map_iff_split]
  simp only [Class.memberTexts, List.mem_append, List.mem_map, List.mem_flatMap, or_imp, forall_and,
    forall_exists_index, and_imp, forall_apply_eq_imp_iff₂]
  constructor
  · rintro ⟨⟨fields, freshFields⟩, methods, freshMethods⟩
    exact ⟨⟨fields, fun text method listed isText => methods method listed text isText⟩,
      freshFields, freshMethods⟩
  · rintro ⟨⟨fields, methods⟩, freshFields, freshMethods⟩
    exact ⟨⟨fields, freshFields⟩, fun method listed text isText =>
      methods text method listed isText, freshMethods⟩

end Completes

end ObjectFlow.Declaration
