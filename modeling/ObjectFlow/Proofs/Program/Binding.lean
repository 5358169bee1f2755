import ObjectFlow.Proofs.Hierarchy.Declared
import ObjectFlow.Proofs.Program.Legible
import ObjectFlow.Proofs.Program.Provenance
import ObjectFlow.Proofs.Program.Refusing

/-!
# Which method a body belongs to

A method gets its id when it is declared, and its body is bound to the method
that its qualified name finds.  The name is taken apart at its last dot, and the
class is looked up without the blanks around it, so that the two are one method
exactly if neither matters.
-/

namespace ObjectFlow

namespace Text

variable {separator : Char} {first last text : String}

private theorem splitAtLast?_append (free : separator ∉ last.toList)
    (same : text.toList = first.toList ++ separator :: last.toList) :
    splitAtLast? separator text = some (first, last) := by
  have all : ∀ c ∈ last.toList.reverse, decide (c ≠ separator) = true := by
    intro c member
    refine decide_eq_true fun isSeparator => free ?_
    rw [← isSeparator]
    exact List.mem_reverse.mp member
  have reversed : text.toList.reverse =
      last.toList.reverse ++ separator :: first.toList.reverse := by
    rw [same]
    simp
  unfold splitAtLast?
  dsimp only
  rw [reversed, if_pos (by simp), List.takeWhile_append_of_pos all,
    List.dropWhile_append_of_pos all]
  simp

private theorem notMem_of_splitAtLast? (found : splitAtLast? separator text = some (first, last)) :
    separator ∉ last.toList := by
  unfold splitAtLast? at found
  dsimp only at found
  split at found
  · cases found
    intro member
    have inside := List.all_eq_true.mp List.all_takeWhile separator (by simpa using member)
    simp at inside
  · cases found

end Text

namespace Hierarchy

variable {hierarchy : Hierarchy}

theorem lookupMethod_ok_iff {qualified : String} {id : MethodId} :
    hierarchy.lookupMethod qualified = .ok id ↔ ∃ className name type info,
      Text.splitAtLast? '.' qualified = some (className, name) ∧
        hierarchy.lookupType className = some type ∧
        hierarchy.table.classInfo? type = some info ∧
        hierarchy.declaredMethod? info name = some id := by
  unfold lookupMethod
  dsimp only
  constructor
  · intro found
    split at found
    · next isFound =>
        cases found
        obtain ⟨⟨className, name⟩, isSplit, isFound⟩ := Option.bind_eq_some_iff.mp isFound
        obtain ⟨type, isType, isFound⟩ := Option.bind_eq_some_iff.mp isFound
        obtain ⟨info, isClass, isFound⟩ := Option.bind_eq_some_iff.mp isFound
        exact ⟨className, name, type, info, isSplit, isType, isClass, isFound⟩
    · cases found
  · rintro ⟨className, name, type, info, isSplit, isType, isClass, isFound⟩
    simp only [isSplit, isType, isClass, Option.bind_eq_bind, Option.bind_some, isFound]

theorem Linked.declaredMethod?_iff (linked : hierarchy.Linked) {type : TypeId} {info : ClassInfo}
    (isClass : hierarchy.table.classInfo? type = some info) {name : String} {id : MethodId} :
    hierarchy.declaredMethod? info name = some id ↔
      id ∈ info.methods ∧ ∃ method, hierarchy.method? id = some method ∧ method.name = name := by
  have members := (linked.table.classes type info isClass).methods
  have sound : ∀ {id}, hierarchy.declaredMethod? info name = some id →
      id ∈ info.methods ∧ ∃ method, hierarchy.method? id = some method ∧ method.name = name := by
    intro id found
    have isNamed := List.find?_some (show List.find? _ _ = some _ from found)
    obtain ⟨method, isMethod, isName⟩ := (Option.any_eq_true _ _).mp isNamed
    exact ⟨List.mem_of_find?_eq_some found, method, isMethod, by simpa using isName⟩
  refine ⟨sound, ?_⟩
  rintro ⟨member, method, isMethod, isName⟩
  cases found : hierarchy.declaredMethod? info name with
  | none =>
      have missed := List.find?_eq_none.mp found id member
      simp [isMethod, isName] at missed
  | some other =>
      obtain ⟨member', method', isMethod', isName'⟩ := sound found
      rw [members.distinct other member' id member method' method isMethod' isMethod
        (isName'.trans isName.symm)]

end Hierarchy

namespace Declaration

variable {program : Program} {hierarchy : Hierarchy}

/-! ## Ids of declared methods -/

private theorem methodNames_eq (program : Program) :
    program.methodNames = program.methods.map fun entry => (entry.1.name, entry.2.name) := by
  unfold Program.methodNames Program.methods
  rw [List.map_flatMap]
  simp [Function.comp_def]

theorem mem_methods {owner : Class} {body : Method} :
    (owner, body) ∈ program.methods ↔ owner ∈ program.classes ∧ body ∈ owner.methods := by
  unfold Program.methods
  simp only [List.mem_flatMap, List.mem_map, Prod.mk.injEq]
  constructor
  · rintro ⟨_, member, _, member', rfl, rfl⟩
    exact ⟨member, member'⟩
  · rintro ⟨member, member'⟩
    exact ⟨owner, member, body, member', rfl, rfl⟩

private theorem exists_own_method (built : program.hierarchy = .ok hierarchy) {owner : Class}
    {body : Method} (isOwner : owner ∈ program.classes) (isBody : body ∈ owner.methods) :
    ∃ type info, hierarchy.typeName? type = some owner.name ∧
      hierarchy.table.classInfo? type = some info ∧ ∃ id ∈ info.methods,
        hierarchy.table.describedMethod? id = some body.description := by
  obtain ⟨_, _, shows⟩ := hierarchy_shows built
  have described := (described?_hierarchy built).mpr (.declared isOwner)
  obtain ⟨type, isType, described⟩ := Option.bind_eq_some_iff.mp described
  obtain ⟨kind, isKind, described⟩ := Option.bind_eq_some_iff.mp described
  have isName := (TypeTable.find?_eq_some_iff shows.names).mp isType
  cases kind with
  | primitive _ => cases described
  | array _ =>
      obtain ⟨_, _, same⟩ := Option.map_eq_some_iff.mp described
      cases same
  | declared info =>
      obtain ⟨_, described, same⟩ := Option.map_eq_some_iff.mp described
      cases same
      obtain ⟨_, _, _, _, methods, _⟩ := TypeTable.describedClass?_eq_some.mp described
      have isClass : hierarchy.table.classInfo? type = some info := by
        simp [TypeTable.classInfo?, isKind, TypeKind.classInfo?]
      refine ⟨type, info, isName, isClass, ?_⟩
      obtain ⟨index, isThere⟩ := List.mem_iff_getElem?.mp (List.mem_map_of_mem isBody)
      obtain ⟨id, isId, isMethod⟩ :=
        forall₂_getElem?_right (mapM_eq_some_iff.mp methods) isThere
      exact ⟨id, List.mem_of_getElem? isId, isMethod⟩

private theorem exists_method?_of_described {id : MethodId} {description : MethodDescription}
    (described : hierarchy.table.describedMethod? id = some description) :
    ∃ method, hierarchy.method? id = some method ∧ method.name = description.name := by
  obtain ⟨method, isMethod, described⟩ := Option.bind_eq_some_iff.mp described
  obtain ⟨_, _, described⟩ := Option.bind_eq_some_iff.mp described
  obtain ⟨_, _, same⟩ := Option.bind_eq_some_iff.mp described
  cases same
  exact ⟨method, isMethod, rfl⟩

/-- Methods are numbered in the order of declaration, after `Object.clone`. -/
theorem method_at (built : program.hierarchy = .ok hierarchy) {index : Nat} {owner : Class}
    {body : Method} (found : program.methods[index]? = some (owner, body)) :
    ∃ type info method, hierarchy.typeName? type = some owner.name ∧
      hierarchy.table.classInfo? type = some info ∧ index + 1 ∈ info.methods ∧
      hierarchy.method? (index + 1) = some method ∧ method.declaring = type ∧
      method.name = body.name ∧
      hierarchy.table.describedMethod? (index + 1) = some body.description := by
  obtain ⟨_, _, shows⟩ := hierarchy_shows built
  have linked := hierarchy_linked built
  obtain ⟨isOwner, isBody⟩ := mem_methods.mp (List.mem_of_getElem? found)
  obtain ⟨type, info, isName, isClass, id, listed, described⟩ :=
    exists_own_method built isOwner isBody
  obtain ⟨method, isMethod, sameName⟩ := exists_method?_of_described described
  obtain ⟨_, isMethod', isType⟩ := (linked.table.classes type info isClass).methods.held id listed
  cases isMethod.symm.trans isMethod'
  have listedName : (("Object", "clone") :: program.methodNames)[index + 1]? =
      some (owner.name, body.name) := by
    rw [List.getElem?_cons_succ, methodNames_eq, List.getElem?_map, found, Option.map_some]
  obtain ⟨other, isOther, qualified⟩ :=
    forall₂_getElem?_right (mapM_eq_some_iff.mp shows.methods) listedName
  obtain ⟨otherName, isOtherName, same⟩ := Option.map_eq_some_iff.mp qualified
  obtain ⟨rfl, otherMethod⟩ := Prod.mk.inj same
  have sameType : other.declaring = method.declaring :=
    (TypeTable.typeName?_unique shows.names isOtherName isName).trans isType.symm
  obtain rfl : index + 1 = id :=
    linked.method_eq isOther isMethod sameType (otherMethod.trans sameName.symm)
  exact ⟨type, info, method, isName, isClass, listed, isMethod, isType, sameName, described⟩

/-! ## Bodies and their methods -/

/-- The qualified name of the method can be taken apart again. -/
def Class.Qualifies (owner : Class) (method : Method) : Prop :=
  Text.trim owner.name = owner.name ∧ '.' ∉ method.name.toList

instance (owner : Class) (method : Method) : Decidable (owner.Qualifies method) :=
  inferInstanceAs (Decidable (_ ∧ _))

theorem lookupMethod_iff (built : program.hierarchy = .ok hierarchy) {index : Nat} {owner : Class}
    {body : Method} (found : program.methods[index]? = some (owner, body)) :
    hierarchy.lookupMethod s!"{owner.name}.{body.name}" = .ok (index + 1) ↔
      owner.Qualifies body := by
  obtain ⟨_, _, shows⟩ := hierarchy_shows built
  have linked := hierarchy_linked built
  obtain ⟨type, info, method, isName, isClass, listed, isMethod, isType, sameName, _⟩ :=
    method_at built found
  have split : '.' ∉ body.name.toList →
      Text.splitAtLast? '.' s!"{owner.name}.{body.name}" = some (owner.name, body.name) :=
    fun free => Text.splitAtLast?_append free (by simp)
  rw [Hierarchy.lookupMethod_ok_iff]
  constructor
  · rintro ⟨className, name, other, otherInfo, isSplit, isOther, isOtherClass, isFound⟩
    obtain ⟨listed', method', isMethod', isName'⟩ :=
      (linked.declaredMethod?_iff isOtherClass).mp isFound
    cases isMethod.symm.trans isMethod'
    have free : '.' ∉ body.name.toList := by
      rw [← sameName, isName']
      exact Text.notMem_of_splitAtLast? isSplit
    refine ⟨?_, free⟩
    cases (split free).symm.trans isSplit
    obtain ⟨_, isMethod'', isType'⟩ :=
      (linked.table.classes other otherInfo isOtherClass).methods.held _ listed'
    cases isMethod.symm.trans isMethod''
    rw [isType] at isType'
    subst isType'
    have isTrimmed := (TypeTable.find?_eq_some_iff shows.names).mp isOther
    exact Option.some.inj (isTrimmed.symm.trans isName)
  · rintro ⟨trimmed, free⟩
    refine ⟨owner.name, body.name, type, info, split free, ?_, isClass, ?_⟩
    · unfold Hierarchy.lookupType
      rw [trimmed]
      exact (TypeTable.find?_eq_some_iff shows.names).mpr isName
    · exact (linked.declaredMethod?_iff isClass).mpr ⟨listed, method, isMethod, sameName⟩

private theorem forall₂_lookupMethod (built : program.hierarchy = .ok hierarchy)
    (qualifies : ∀ entry ∈ program.methods, entry.1.Qualifies entry.2) :
    List.Forall₂ (fun entry id =>
      hierarchy.lookupMethod s!"{entry.1.name}.{entry.2.name}" = .ok id) program.methods
      ((List.range program.methods.length).map (· + 1)) := by
  rw [List.forall₂_iff_get]
  refine ⟨by simp, fun index below below' => ?_⟩
  obtain ⟨⟨owner, body⟩, found⟩ : ∃ entry, program.methods[index]? = some entry :=
    ⟨_, List.getElem?_eq_getElem below⟩
  obtain ⟨_, isEntry⟩ := List.getElem?_eq_some_iff.mp found
  simp only [List.get_eq_getElem, isEntry, List.getElem_map, List.getElem_range]
  exact (lookupMethod_iff built found).mpr (qualifies (owner, body) (List.mem_of_getElem? found))

theorem mem_bodies_iff (built : program.hierarchy = .ok hierarchy)
    (qualifies : ∀ entry ∈ program.methods, entry.1.Qualifies entry.2) {id : MethodId}
    {body : Method} : (id, body) ∈ program.bodies hierarchy ↔
      ∃ index owner, program.methods[index]? = some (owner, body) ∧ id = index + 1 := by
  rw [mem_bodies]
  constructor
  · rintro ⟨owner, isOwner, isBody, isId⟩
    obtain ⟨index, found⟩ := List.mem_iff_getElem?.mp (mem_methods.mpr ⟨isOwner, isBody⟩)
    have own :=
      (lookupMethod_iff built found).mpr (qualifies (owner, body) (List.mem_of_getElem? found))
    exact ⟨index, owner, found, Except.ok.inj (isId.symm.trans own)⟩
  · rintro ⟨index, owner, found, rfl⟩
    obtain ⟨isOwner, isBody⟩ := mem_methods.mp (List.mem_of_getElem? found)
    exact ⟨owner, isOwner, isBody,
      (lookupMethod_iff built found).mpr (qualifies (owner, body) (List.mem_of_getElem? found))⟩

/-- The statements of a program are those of the declared bodies, each under the id of its own
method. -/
structure Translates (program : Program) (loaded : ObjectFlow.Program) : Prop where
  sound : ∀ statement ∈ loaded.statements, ∃ index owner body,
    program.methods[index]? = some (owner, body) ∧ statement.method = index + 1 ∧
      ((∃ element operands, body.Declares statement.site element operands ∧
        statement.action.Means loaded.hierarchy loaded.variableTable statement.method body
          statement.site operands element) ∨
      ∃ source handlers summary, statement.action = .raise source handlers summary)
  complete : ∀ (index : Nat) owner body, program.methods[index]? = some (owner, body) →
    ∀ site element operands, body.Declares site element operands → element ≠ .return →
      ∃ point action, ⟨index + 1, site, point, action⟩ ∈ loaded.statements ∧
        action.Means loaded.hierarchy loaded.variableTable (index + 1) body site operands element

private theorem translates_of_load (built : program.hierarchy = .ok hierarchy)
    (qualifies : ∀ entry ∈ program.methods, entry.1.Qualifies entry.2)
    {loaded : ObjectFlow.Program} (isLoaded : program.load = .ok loaded)
    (same : loaded.hierarchy = hierarchy) : Translates program loaded := by
  have sourced := load_sourced isLoaded
  have bodies : ∀ {id body}, (id, body) ∈ program.bodies hierarchy ↔
      ∃ index owner, program.methods[index]? = some (owner, body) ∧ id = index + 1 :=
    mem_bodies_iff built qualifies
  rw [← same] at bodies
  refine ⟨fun statement member => ?_, fun index owner body found site element operands declares
    other => ?_⟩
  · have here := sourced.statements statement member
    rcases here.meant with ⟨body, element, operands, isBody, declares, means⟩ |
      ⟨source, handlers, summary, isRaise⟩
    · obtain ⟨index, owner, found, isId⟩ := bodies.mp isBody
      exact ⟨index, owner, body, found, isId, .inl ⟨element, operands, declares, means⟩⟩
    · obtain ⟨_, body, isBody, _⟩ := here.raise source handlers summary isRaise
      obtain ⟨index, owner, found, isId⟩ := bodies.mp isBody
      exact ⟨index, owner, body, found, isId, .inr ⟨source, handlers, summary, isRaise⟩⟩
  · obtain ⟨point, action, isThere, means, _⟩ := sourced.elements (index + 1) body
      (bodies.mpr ⟨index, owner, found, rfl⟩) site element operands declares other
    exact ⟨point, action, isThere, means⟩

/-- The methods of a program are numbered in the order of declaration, and the qualified name of one
finds it exactly if it can be taken apart.  If all names can, every body is translated under the id
of its own method, and loading misses no declared method and registers no statement twice. -/
theorem bodies_under_own_ids (built : program.hierarchy = .ok hierarchy) :
    (∀ (index : Nat) owner body, program.methods[index]? = some (owner, body) →
      (∃ method, hierarchy.method? (index + 1) = some method ∧
        hierarchy.typeName? method.declaring = some owner.name ∧
        hierarchy.table.describedMethod? (index + 1) = some body.description) ∧
      (hierarchy.lookupMethod s!"{owner.name}.{body.name}" = .ok (index + 1) ↔
        owner.Qualifies body)) ∧
    ((∀ entry ∈ program.methods, entry.1.Qualifies entry.2) →
      (∀ id body, (id, body) ∈ program.bodies hierarchy ↔
        ∃ index owner, program.methods[index]? = some (owner, body) ∧ id = index + 1) ∧
      (∀ failure, program.load = .error failure →
        (∀ method site statement,
          failure ≠ .error (.duplicateStatement method site statement)) ∧
        ∀ entry ∈ program.methods,
          failure ≠ .error (.unknownMethod s!"{entry.1.name}.{entry.2.name}")) ∧
      ∀ loaded, program.load = .ok loaded →
        loaded.hierarchy = hierarchy ∧ Translates program loaded) := by
  refine ⟨fun index owner body found => ⟨?_, lookupMethod_iff built found⟩, fun qualifies => ?_⟩
  · obtain ⟨_, _, method, isName, _, _, isMethod, isType, _, described⟩ := method_at built found
    exact ⟨method, isMethod, isType ▸ isName, described⟩
  have bound := forall₂_lookupMethod built qualifies
  have distinct : ((List.range program.methods.length).map (· + 1)).Nodup :=
    List.nodup_range.map (add_left_injective 1)
  obtain ⟨refuses, keeps⟩ := load_cases built bound distinct
  refine ⟨fun id body => mem_bodies_iff built qualifies, fun failure failed => ⟨?_, ?_⟩,
    fun loaded isLoaded => ?_⟩
  · rintro method site statement rfl
    exact refuses _ failed
  · rintro entry member rfl
    obtain ⟨index, found⟩ := List.mem_iff_getElem?.mp member
    exact refuses _ failed (index + 1) ((lookupMethod_iff built found).mpr (qualifies entry member))
  · have same := keeps loaded isLoaded
    exact ⟨same, translates_of_load built qualifies isLoaded same⟩

def countingProgram : Program :=
  ⟨"Main.main",
    [⟨"Counter", none, none, false,
        [.method ⟨"<clinit>", none, true, false, false, []⟩,
          .method ⟨"next", some "Counter", false, false, false,
            [.local ⟨"made", "Counter", false⟩,
              .statement .new { target := some "made", type := some "Counter" },
              .statement .return { source := some "made" }]⟩]⟩,
      ⟨"Main", none, none, false,
        [.method ⟨"main", none, true, false, false,
          [.local ⟨"counter", "Counter", false⟩,
            .statement .new { target := some "counter", type := some "Counter" },
            .statement .call { receiver := some "counter", method := some "Counter.next" }]⟩]⟩]⟩

theorem bodies_under_own_ids_counting : ∃ hierarchy loaded,
    countingProgram.hierarchy = .ok hierarchy ∧ countingProgram.load = .ok loaded ∧
      (∀ entry ∈ countingProgram.methods, entry.1.Qualifies entry.2) ∧
      hierarchy.lookupMethod "Counter.next" = .ok 2 ∧
      loaded.hierarchy = hierarchy ∧ Translates countingProgram loaded := by
  have isOk : (countingProgram.hierarchy.toOption.bind fun _ =>
      countingProgram.load.toOption.map fun loaded => loaded.statements.length) = some 5 := by
    decide +kernel
  obtain ⟨hierarchy, isHierarchy, isOk⟩ := Option.bind_eq_some_iff.mp isOk
  obtain ⟨loaded, isLoaded, _⟩ := Option.map_eq_some_iff.mp isOk
  have built := toOption_eq_some.mp isHierarchy
  have isLoaded := toOption_eq_some.mp isLoaded
  have qualifies : ∀ entry ∈ countingProgram.methods, entry.1.Qualifies entry.2 := by
    decide +kernel
  have own := bodies_under_own_ids built
  obtain ⟨same, translates⟩ := (own.2 qualifies).2.2 loaded isLoaded
  have second : countingProgram.methods[1]?.map (fun entry => s!"{entry.1.name}.{entry.2.name}") =
      some "Counter.next" := by decide +kernel
  obtain ⟨⟨owner, body⟩, isSecond, isNext⟩ := Option.map_eq_some_iff.mp second
  have qualified : owner.Qualifies body := qualifies (owner, body) (List.mem_of_getElem? isSecond)
  have found := (own.1 1 owner body isSecond).2.mpr qualified
  rw [isNext] at found
  exact ⟨hierarchy, loaded, built, isLoaded, qualifies, found, same, translates⟩

def Program.refusal? (program : Program) : Option Failure :=
  match program.load with
  | .error failure => some failure
  | .ok _ => none

theorem load_of_refusal? {program : Program} {failure : Failure}
    (refused : program.refusal? = some failure) : program.load = .error failure := by
  unfold Program.refusal? at refused
  split at refused
  · next isError => rw [isError, Option.some.inj refused]
  · cases refused

def makingMethod (name : String) : Member :=
  .method ⟨name, none, true, false, false,
    [.local ⟨"made", "A", false⟩, .statement .new { target := some "made", type := some "A" }]⟩

def blankProgram : Program :=
  ⟨"A.make", [⟨"A ", none, none, false, [makingMethod "make"]⟩,
    ⟨"A", none, none, false, [makingMethod "make"]⟩]⟩

def dottedProgram : Program :=
  ⟨"A.make", [⟨"A", none, none, false, [makingMethod "make", makingMethod "make.more"]⟩]⟩

/-- The body of one class is bound to the method of the other one, and a method is not found. -/
theorem bodies_under_other_ids :
    (∃ hierarchy, blankProgram.hierarchy = .ok hierarchy ∧
      hierarchy.describeMethod? 1 = some "A .make" ∧
      hierarchy.lookupMethod "A .make" = .ok 2) ∧
    (∃ site statement,
      blankProgram.load = .error (.error (.duplicateStatement "A.make" site statement))) ∧
    (∃ hierarchy, dottedProgram.hierarchy = .ok hierarchy ∧
      hierarchy.describeMethod? 2 = some "A.make.more") ∧
    dottedProgram.load = .error (.error (.unknownMethod "A.make.more")) := by
  have blank : blankProgram.hierarchy.toOption.map (fun hierarchy =>
      (hierarchy.describeMethod? 1, (hierarchy.lookupMethod "A .make").toOption)) =
      some (some "A .make", some 2) := by decide +kernel
  have dotted : dottedProgram.hierarchy.toOption.map (·.describeMethod? 2) =
      some (some "A.make.more") := by decide +kernel
  have twice : blankProgram.refusal? =
      some (.error (.duplicateStatement "A.make" 0 "v1 = new t11")) := by decide +kernel
  have missing : dottedProgram.refusal? = some (.error (.unknownMethod "A.make.more")) := by
    decide +kernel
  obtain ⟨hierarchy, isHierarchy, known⟩ := Option.map_eq_some_iff.mp blank
  obtain ⟨isName, isFound⟩ := Prod.mk.inj known
  obtain ⟨other, isOther, isOtherName⟩ := Option.map_eq_some_iff.mp dotted
  exact ⟨⟨hierarchy, toOption_eq_some.mp isHierarchy, isName, toOption_eq_some.mp isFound⟩,
    ⟨0, "v1 = new t11", load_of_refusal? twice⟩,
    ⟨other, toOption_eq_some.mp isOther, isOtherName⟩, load_of_refusal? missing⟩

end Declaration

end ObjectFlow
