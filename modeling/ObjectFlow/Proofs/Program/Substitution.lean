import Mathlib.Data.List.Forall2
import Mathlib.Data.List.Induction
import ObjectFlow.Program.Basic
import ObjectFlow.Proofs.Effect

/-!
# Replacing a variable in the statements of a method

Each kind of action replaces a variable in its own operands and says whether it
was there.  `Action.replaceUse_eq` says that it replaces the variables it uses
and no others, and `Registrar.replaceUse_run` that all statements of a method
are visited, each once.
-/

namespace ObjectFlow

/-! ## Operands -/

def Variable.substitute (given old new : Variable) : Variable := if given = old then new else given

section Operands

variable {old new : Variable}

private theorem Variable.replace_eq (given : Variable) :
    given.replace old new = (given == old, given.substitute old new) := by
  unfold replace substitute
  split <;> simp [*]

private theorem replaceGiven_eq (given : Option Variable) :
    replaceGiven old new given = (given == some old, given.map (·.substitute old new)) := by
  cases given with
  | none => rfl
  | some given => simp [replaceGiven, Variable.replace_eq]

private theorem replaceEach_eq {α : Type} [BEq α] [LawfulBEq α] {replace : α → Bool × α}
    {sought : α} {change : α → α} (each : ∀ item, replace item = (item == sought, change item))
    (changed : Bool) (items : List α) :
    replaceEach replace changed items = (changed || items.contains sought, items.map change) := by
  induction items generalizing changed with
  | nil => simp [replaceEach]
  | cons item items ih =>
      simp only [replaceEach, each, ih, List.contains_cons, List.map_cons, Prod.mk.injEq, and_true]
      rw [BEq.comm (a := sought), Bool.or_comm (item == sought), Bool.or_assoc]

private theorem Variable.mem_map_substitute (used : List Variable) :
    old ∈ used.map (·.substitute old new) ↔ old = new ∧ old ∈ used := by
  simp only [List.mem_map, substitute]
  constructor
  · rintro ⟨given, member, same⟩
    split at same
    · next isOld => exact ⟨same.symm, isOld ▸ member⟩
    · next other => exact absurd same other
  · rintro ⟨rfl, member⟩
    exact ⟨old, member, by simp⟩

private theorem Variable.substitute_substitute (given : Variable) :
    (given.substitute old new).substitute old new = given.substitute old new := by
  unfold substitute
  by_cases isOld : given = old
  · simp [isOld]
  · simp [isOld]

end Operands

/-! ## Actions -/

namespace Action

def mapUsed (change : Variable → Variable) : Action → Action
  | .new target type => .new target type
  | .newArray target type dims => .newArray target type dims
  | .copy target source cast => .copy target (change source) cast
  | .phi target sources => .phi target (sources.map change)
  | .return source summary => .return (change source) summary
  | .load target base field => .load target (change base) field
  | .store base field source => .store (change base) field (change source)
  | .static .get declared field initializers => .static .get declared (change field) initializers
  | .static .put declared field initializers => .static .put (change declared) field initializers
  | .call invoked =>
      .call { invoked with
        receiver := invoked.receiver.map change
        args := invoked.args.map fun arg => arg.map change }
  | .raise source handlers summary => .raise (change source) handlers summary
  | .classInit initializers => .classInit initializers

private theorem used_mapUsed (change : Variable → Variable) (action : Action) :
    (action.mapUsed change).used = action.used.map change := by
  cases action with
  | static access _ _ _ => cases access <;> rfl
  | call invoked =>
      simp [used, mapUsed, List.filterMap_map, List.map_filterMap, Option.toList_map]
  | _ => rfl

private theorem defined?_mapUsed (change : Variable → Variable) (action : Action) :
    (action.mapUsed change).defined? = action.defined? := by
  cases action with
  | static access _ _ _ => cases access <;> rfl
  | _ => rfl

private theorem mapUsed_mapUsed (change later : Variable → Variable) (action : Action) :
    (action.mapUsed change).mapUsed later = action.mapUsed (later ∘ change) := by
  cases action with
  | static access _ _ _ => cases access <;> rfl
  | _ => simp [mapUsed, Function.comp_def]

/-- Every kind of action replaces just the variables it uses, and tells if `old` was one. -/
theorem replaceUse_eq (old new : Variable) (action : Action) :
    action.replaceUse old new =
      (action.used.contains old, action.mapUsed (·.substitute old new)) := by
  have several (sources : List Variable) :
      replaceEach (·.replace old new) false sources =
        (sources.contains old, sources.map (·.substitute old new)) :=
    replaceEach_eq Variable.replace_eq false sources
  have optional (changed : Bool) (args : List (Option Variable)) :
      replaceEach (replaceGiven old new) changed args =
        (changed || args.contains (some old), args.map (Option.map (·.substitute old new))) :=
    replaceEach_eq replaceGiven_eq changed args
  cases action with
  | static access _ _ _ =>
      cases access <;> simp [replaceUse, used, mapUsed, Variable.replace_eq, beq_eq_decide, eq_comm]
  | store base field source =>
      simp [replaceUse, used, mapUsed, Variable.replace_eq, beq_eq_decide, eq_comm, Bool.or_comm]
  | phi target sources => simp [replaceUse, used, mapUsed, several]
  | call invoked => simp [replaceUse, used, mapUsed, replaceGiven_eq, optional, beq_eq_decide]
  | _ => simp [replaceUse, used, mapUsed, Variable.replace_eq, beq_eq_decide, eq_comm]

end Action

namespace Statement

def substitute (statement : Statement) (old new : Variable) : Statement :=
  { statement with action := statement.action.mapUsed (·.substitute old new) }

def substituteIn (method : MethodId) (old new : Variable) (statement : Statement) : Statement :=
  if statement.method = method then statement.substitute old new else statement

/-- What becomes of a statement when `new` is put for `old` in a method: if it is one of the method
then each of the variables it uses becomes its image, and all else stays as it is. -/
structure Substituted (method : MethodId) (old new : Variable) (before after : Statement) :
    Prop where
  method_eq : after.method = before.method
  site_eq : after.site = before.site
  point_eq : after.point = before.point
  defined?_eq : after.action.defined? = before.action.defined?
  used_eq : before.method = method →
    after.action.used = before.action.used.map (·.substitute old new)
  action_eq : before.method = method →
    after.action = before.action.mapUsed (·.substitute old new)
  other_eq : before.method ≠ method → after = before

theorem substituted (statement : Statement) (method : MethodId) (old new : Variable) :
    statement.Substituted method old new (statement.substituteIn method old new) := by
  unfold substituteIn
  split
  · next here =>
      exact ⟨rfl, rfl, rfl, statement.action.defined?_mapUsed _,
        fun _ => statement.action.used_mapUsed _, fun _ => rfl, fun other => absurd here other⟩
  · next other =>
      exact ⟨rfl, rfl, rfl, rfl, fun here => absurd here other, fun here => absurd here other,
        fun _ => rfl⟩

private theorem Substituted.kill?_eq {method : MethodId} {old new : Variable}
    {before after : Statement} (substituted : before.Substituted method old new after) :
    after.kill? = before.kill? := by
  simp only [kill?, substituted.point_eq, substituted.defined?_eq]

/-- After replacing, `old` is used only where it was put for itself. -/
theorem uses_substituteIn_iff {method : MethodId} {old new : Variable} (statement : Statement) :
    ((statement.substituteIn method old new).method = method ∧
        old ∈ (statement.substituteIn method old new).action.used) ↔
      old = new ∧ statement.method = method ∧ old ∈ statement.action.used := by
  rw [(statement.substituted method old new).method_eq, and_left_comm]
  refine and_congr_right fun here => ?_
  rw [(statement.substituted method old new).used_eq here, Variable.mem_map_substitute]

private theorem substituteIn_substituteIn (method : MethodId) (old new : Variable)
    (statement : Statement) :
    (statement.substituteIn method old new).substituteIn method old new =
      statement.substituteIn method old new := by
  by_cases here : statement.method = method
  · simp [substituteIn, substitute, here, Action.mapUsed_mapUsed, Function.comp_def,
      Variable.substitute_substitute]
  · simp [substituteIn, here]

private theorem replaceUse_eq (statement : Statement) (old new : Variable) :
    statement.replaceUse old new =
      (statement.action.used.contains old, statement.substitute old new) := by
  simp [replaceUse, substitute, Action.replaceUse_eq]

end Statement

/-! ## Visiting the statements of a method -/

private theorem statementIds_concat (statements : List Statement) (statement : Statement)
    (method : MethodId) :
    statementIds (statements ++ [statement]) method =
      statementIds statements method ++
        if statement.method = method then [statements.length] else [] := by
  unfold statementIds
  rw [List.zipIdx_append, List.filter_append, List.map_append]
  split <;> simp [*]

namespace Registrar

open Effect

def withStatements (registrar : Registrar) (statements : List Statement) : Registrar :=
  { registrar with statements := statements }

@[simp] theorem statements_withStatements (registrar : Registrar) (statements : List Statement) :
    (registrar.withStatements statements).statements = statements := rfl

@[simp] theorem hierarchy_withStatements (registrar : Registrar) (statements : List Statement) :
    (registrar.withStatements statements).hierarchy = registrar.hierarchy := rfl

@[simp] theorem entry_withStatements (registrar : Registrar) (statements : List Statement) :
    (registrar.withStatements statements).entry = registrar.entry := rfl

@[simp] theorem withStatements_self (registrar : Registrar) :
    registrar.withStatements registrar.statements = registrar := rfl

@[simp] theorem withStatements_withStatements (registrar : Registrar)
    (statements later : List Statement) :
    (registrar.withStatements statements).withStatements later = registrar.withStatements later :=
  rfl

/-- How many statements of a method use a variable. -/
def useCount (registrar : Registrar) (method : MethodId) (sought : Variable) : Nat :=
  registrar.statements.countP fun statement =>
    statement.method = method ∧ sought ∈ statement.action.used

variable {method : MethodId} {old new : Variable}

private theorem replaceUseAt_run {registrar : Registrar} {id : StatementId} {statement : Statement}
    (found : registrar.statements[id]? = some statement) :
    replaceUseAt old new id registrar = (.ok (statement.action.used.contains old),
      registrar.withStatements (registrar.statements.set id (statement.substitute old new))) := by
  unfold replaceUseAt
  simp only [run_bind, run_get, found, run_inRange_some, Statement.replaceUse_eq]
  rfl

private theorem mapM_replaceUseAt_run (registrar : Registrar) (visited rest : List Statement) :
    (statementIds visited method).mapM (replaceUseAt old new)
        (registrar.withStatements (visited ++ rest)) =
      (.ok ((visited.filter (·.method = method)).map (·.action.used.contains old)),
        registrar.withStatements
          (visited.map (Statement.substituteIn method old new) ++ rest)) := by
  induction visited using List.reverseRecOn generalizing rest with
  | nil => rfl
  | append_singleton visited statement ih =>
      rw [statementIds_concat, List.mapM_append, run_bind, List.append_assoc, ih]
      dsimp only
      by_cases here : statement.method = method
      · have found : (registrar.withStatements
            (visited.map (Statement.substituteIn method old new) ++
              ([statement] ++ rest))).statements[visited.length]? = some statement := by
          simp
        rw [if_pos here, List.mapM_cons, List.mapM_nil]
        simp only [run_bind, replaceUseAt_run found, run_pure]
        simp [here, Statement.substituteIn, List.set_append_right]
      · rw [if_neg here, List.mapM_nil]
        simp only [run_bind, run_pure]
        simp [here, Statement.substituteIn]

private theorem replaceUse_run (registrar : Registrar) (method : MethodId) (old new : Variable) :
    replaceUse method old new registrar =
      (.ok (registrar.useCount method old), registrar.withStatements
          (registrar.statements.map (Statement.substituteIn method old new))) := by
  have visits : (statementIds registrar.statements method).mapM (replaceUseAt old new) registrar =
      (.ok ((registrar.statements.filter (·.method = method)).map (·.action.used.contains old)),
        registrar.withStatements
          (registrar.statements.map (Statement.substituteIn method old new))) := by
    simpa using mapM_replaceUseAt_run registrar registrar.statements []
  unfold replaceUse
  simp only [run_bind, run_get, visits, run_pure]
  simp [useCount, List.count_eq_countP, List.countP_map, List.countP_filter, Function.comp_def,
    Bool.and_comm]

/-! ## Finishing -/

def IgnoresStatements {α : Type} (computation : Register α) : Prop :=
  ∀ registrar statements, computation (registrar.withStatements statements) =
    ((computation registrar).1, (computation registrar).2.withStatements statements)

namespace IgnoresStatements

variable {α β : Type} {computation : Register α}

private theorem statements_eq (ignores : IgnoresStatements computation) (registrar : Registrar) :
    (computation registrar).2.statements = registrar.statements :=
  congrArg (·.2.statements) (ignores registrar registrar.statements)

theorem pure (value : α) : IgnoresStatements (pure value) := fun _ _ => rfl

theorem bind {next : α → Register β} (first : IgnoresStatements computation)
    (rest : ∀ value, IgnoresStatements (next value)) :
    IgnoresStatements (computation >>= next) := by
  intro registrar statements
  rw [run_bind, run_bind, first registrar statements]
  cases computation registrar with
  | mk outcome after =>
      cases outcome with
      | error failure => rfl
      | ok value => exact rest value after statements

private theorem forM {items : List β} {body : β → Register PUnit}
    (each : ∀ item, IgnoresStatements (body item)) : IgnoresStatements (items.forM body) := by
  induction items with
  | nil => exact pure PUnit.unit
  | cons item items ih => exact (each item).bind fun _ => ih

private theorem summary (method : MethodId) : IgnoresStatements (Registrar.summary method) := by
  intro registrar statements
  unfold Registrar.summary
  simp only [run_bind, run_get, withStatements]
  cases registrar.summaries.lookup method with
  | some known => rfl
  | none =>
      cases registrar.variableTable.summary? registrar.hierarchy method with
      | none => rfl
      | some made => rfl

end IgnoresStatements

private theorem finish_withStatements (registrar : Registrar) {statements : List Statement}
    (kills : statements.filterMap Statement.kill? =
      registrar.statements.filterMap Statement.kill?) :
    (finish (registrar.withStatements statements)).1 =
      (finish registrar).1.map fun program => { program with statements := statements } := by
  unfold finish
  simp only [run_bind, run_get, entry_withStatements]
  cases registrar.entry with
  | none => rfl
  | some entry =>
      obtain ⟨asking, isAsking⟩ : ∃ asking : Register Unit, (registrar.hierarchy.methodIds.forM
          fun method => do let _ ← Registrar.summary method) = asking := ⟨_, rfl⟩
      have ignores : IgnoresStatements asking :=
        isAsking ▸ .forM fun method => (IgnoresStatements.summary method).bind fun _ => .pure _
      have kept := ignores.statements_eq registrar
      simp only [run_bind, run_get, hierarchy_withStatements, isAsking,
        ignores registrar statements]
      cases ran : asking registrar with
      | mk outcome after =>
          rw [ran] at kept
          cases outcome with
          | error failure => rfl
          | ok value =>
              simp only [run_pure, statements_withStatements, kills, ← kept]
              rfl

/-! ## Replacing -/

private theorem useCount_substituteIn (registrar : Registrar) (method : MethodId)
    (old new : Variable) :
    (registrar.withStatements (registrar.statements.map
      (Statement.substituteIn method old new))).useCount method old =
        if old = new then registrar.useCount method old else 0 := by
  simp only [useCount, statements_withStatements, List.countP_map, Function.comp_def,
    Statement.uses_substituteIn_iff]
  by_cases same : old = new
  · simp [same]
  · simp [same]

private theorem kills_substituteIn (statements : List Statement) (method : MethodId)
    (old new : Variable) :
    (statements.map (Statement.substituteIn method old new)).filterMap Statement.kill? =
      statements.filterMap Statement.kill? := by
  rw [List.filterMap_map]
  congr 1
  funext statement
  exact (statement.substituted method old new).kill?_eq

/-- Replacing a variable in a method succeeds, and answers how many statements of the method
used it.  Of the registrar only the statements change, each as `Substituted` says; they have the
same kills, and the finished program is the same but for them.  A second time nothing changes, and
no statement uses the variable any more unless it was put for itself. -/
theorem replaceUse_substitutes (registrar : Registrar) (method : MethodId) (old new : Variable) :
    ∃ after : Registrar,
      replaceUse method old new registrar = (.ok (registrar.useCount method old), after) ∧
      after = registrar.withStatements after.statements ∧
      List.Forall₂ (Statement.Substituted method old new) registrar.statements after.statements ∧
      after.statements.filterMap Statement.kill? =
        registrar.statements.filterMap Statement.kill? ∧
      (finish after).1 = (finish registrar).1.map (fun program =>
        { program with statements := after.statements }) ∧
      replaceUse method old new after =
        (.ok (if old = new then registrar.useCount method old else 0), after) := by
  have kills := kills_substituteIn registrar.statements method old new
  refine ⟨_, replaceUse_run registrar method old new, rfl, ?each, kills,
    finish_withStatements registrar kills, ?again⟩
  case each =>
    rw [statements_withStatements, List.forall₂_map_right_iff, List.forall₂_same]
    exact fun statement _ => statement.substituted method old new
  case again =>
    rw [replaceUse_run, useCount_substituteIn]
    simp [Function.comp_def, Statement.substituteIn_substituteIn]

def ordered : Variable := ⟨0, TypeTable.objectType, false, true⟩

def loose : Variable := ⟨1, TypeTable.objectType, false, false⟩

def repeating : Registrar :=
  (empty TypeTable.initial.build).withStatements
    [⟨1, 0, some 2, .store ordered .arrayContents ordered⟩,
      ⟨1, 1, some 3, .call
        ⟨.virtual, 0, some ordered, [some ordered, none, some loose], some ordered, loose⟩⟩,
      ⟨1, 2, some 4, .static .get ordered loose []⟩,
      ⟨0, 0, none, .copy loose ordered none⟩]

theorem replaceUse_substitutes_repeated :
    ∃ after : Registrar,
      replaceUse 1 ordered loose repeating = (.ok 2, after) ∧
      after.statements.map (·.action.used) =
        [[loose, loose], [loose, loose, loose], [loose], [ordered]] ∧
      after.statements.filterMap Statement.kill? = [(3, 0), (4, 0)] ∧
      replaceUse 1 ordered loose after = (.ok 0, after) := by
  obtain ⟨after, run, _, _, kills, _, again⟩ := replaceUse_substitutes repeating 1 ordered loose
  have result : after = (replaceUse 1 ordered loose repeating).2 := by rw [run]
  refine ⟨after, run, ?_, kills, again⟩
  rw [result]
  rfl

end Registrar

end ObjectFlow
