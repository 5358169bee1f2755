import Mathlib.Data.List.Basic
import ObjectFlow.Context

/-!
# Taking text apart

Descriptions are put together from parts with separators between them.  A part
that is free of a separator ends where the separator first comes, so that equal
texts have equal parts.  Numbers end where the digits end, and the elements of a
context at the next comma: the text of a context is that of no other one.
-/

namespace ObjectFlow

namespace Text

@[simp] theorem toString_text (text : String) : toString text = text := rfl

variable {first second rest rest' : List Char}

theorem split_while {accepts : Char → Bool} (all : ∀ c ∈ first, accepts c = true)
    (all' : ∀ c ∈ second, accepts c = true)
    (stops : ∀ c, rest.head? = some c → accepts c = false)
    (stops' : ∀ c, rest'.head? = some c → accepts c = false)
    (same : first ++ rest = second ++ rest') : first = second ∧ rest = rest' := by
  induction first generalizing second with
  | nil =>
      cases second with
      | nil => exact ⟨rfl, same⟩
      | cons c second =>
          obtain rfl : rest = c :: (second ++ rest') := same
          have refused := stops c rfl
          rw [all' c List.mem_cons_self] at refused
          cases refused
  | cons c first ih =>
      cases second with
      | nil =>
          obtain rfl : c :: (first ++ rest) = rest' := same
          have refused := stops' c rfl
          rw [all c List.mem_cons_self] at refused
          cases refused
      | cons c' second =>
          obtain ⟨rfl, tails⟩ := List.cons.inj same
          obtain ⟨rfl, rests⟩ := ih (fun d member => all d (List.mem_cons_of_mem _ member))
            (fun d member => all' d (List.mem_cons_of_mem _ member)) tails
          exact ⟨rfl, rests⟩

theorem split_first {separator : Char} (free : separator ∉ first) (free' : separator ∉ second)
    (same : first ++ separator :: rest = second ++ separator :: rest') :
    first = second ∧ rest = rest' := by
  have others : ∀ {part : List Char}, separator ∉ part →
      ∀ c ∈ part, decide (c ≠ separator) = true := by
    intro part free c member
    refine decide_eq_true fun isSeparator => free ?_
    exact isSeparator ▸ member
  have stops : ∀ {part : List Char} c, (separator :: part).head? = some c →
      decide (c ≠ separator) = false := by
    rintro part _ ⟨⟩
    simp
  obtain ⟨rfl, rests⟩ := split_while (others free) (others free') stops stops same
  exact ⟨rfl, (List.cons.inj rests).2⟩

theorem split_last {separator : Char} (free : separator ∉ rest) (free' : separator ∉ rest')
    (same : first ++ separator :: rest = second ++ separator :: rest') :
    first = second ∧ rest = rest' := by
  have reversed := congrArg List.reverse same
  simp only [List.reverse_append, List.reverse_cons, List.append_assoc, List.singleton_append]
    at reversed
  obtain ⟨sameRest, sameFirst⟩ := split_first (by simpa using free) (by simpa using free') reversed
  exact ⟨List.reverse_injective sameFirst, List.reverse_injective sameRest⟩

/-! ## Numbers -/

theorem isDigit_of_mem {number : Nat} {c : Char} (member : c ∈ Nat.toDigits 10 number) :
    c.isDigit = true :=
  Nat.isDigit_of_mem_toDigits (by decide) (by decide) member

theorem notMem_toDigits (number : Nat) {c : Char} (other : c.isDigit = false) :
    c ∉ Nat.toDigits 10 number := by
  intro member
  rw [isDigit_of_mem member] at other
  cases other

@[simp] theorem toDigits_inj {number other : Nat} :
    Nat.toDigits 10 number = Nat.toDigits 10 other ↔ number = other := by
  refine ⟨fun same => ?_, fun same => same ▸ rfl⟩
  rw [← Nat.ofDigitChars_toDigits (b := 10) (n := number) (by decide) (by decide), same,
    Nat.ofDigitChars_toDigits (by decide) (by decide)]

def EndsNumber (rest : List Char) : Prop := ∀ c, rest.head? = some c → c.isDigit = false

private theorem endsNumber_nil : EndsNumber [] := nofun

theorem endsNumber_cons {c : Char} (other : c.isDigit = false) (rest : List Char) :
    EndsNumber (c :: rest) := by
  rintro _ ⟨⟩
  exact other

theorem split_number {number other : Nat} (stops : EndsNumber rest) (stops' : EndsNumber rest')
    (same : Nat.toDigits 10 number ++ rest = Nat.toDigits 10 other ++ rest') :
    number = other ∧ rest = rest' := by
  obtain ⟨sameNumber, sameRest⟩ :=
    split_while (fun _ => isDigit_of_mem) (fun _ => isDigit_of_mem) stops stops' same
  exact ⟨toDigits_inj.mp sameNumber, sameRest⟩

/-! ## Lists -/

/-- Lists of parts that are free of the separator and not empty have different texts. -/
theorem intercalate_injective {separator : Char} {more : List Char}
    {parts others : List (List Char)} (free : ∀ part ∈ parts, separator ∉ part ∧ part ≠ [])
    (free' : ∀ part ∈ others, separator ∉ part ∧ part ≠ [])
    (same : (separator :: more).intercalate parts = (separator :: more).intercalate others) :
    parts = others := by
  -- the first separator ends the first part; a list with one part less has no separator there
  induction parts generalizing others with
  | nil =>
      cases others with
      | nil => rfl
      | cons part others =>
          obtain ⟨_, filled⟩ := free' part List.mem_cons_self
          cases others with
          | nil => exact absurd (by simpa using same.symm) filled
          | cons _ _ => simp [List.intercalate_cons_cons] at same
  | cons part parts ih =>
      obtain ⟨isFree, filled⟩ := free part List.mem_cons_self
      cases others with
      | nil =>
          cases parts with
          | nil => exact absurd (by simpa using same) filled
          | cons _ _ => simp [List.intercalate_cons_cons] at same
      | cons part' others =>
          obtain ⟨isFree', _⟩ := free' part' List.mem_cons_self
          cases parts with
          | nil =>
              cases others with
              | nil => simpa using same
              | cons _ _ =>
                  refine absurd ?_ isFree
                  rw [List.intercalate_singleton, List.intercalate_cons_cons] at same
                  simp [same]
          | cons _ _ =>
              cases others with
              | nil =>
                  refine absurd ?_ isFree'
                  rw [List.intercalate_singleton, List.intercalate_cons_cons] at same
                  simp [← same]
              | cons _ _ =>
                  simp only [List.intercalate_cons_cons, List.append_assoc, List.cons_append]
                    at same
                  obtain ⟨rfl, rests⟩ := split_first isFree isFree' same
                  have tails := ih (fun other member => free other (List.mem_cons_of_mem _ member))
                    (fun other member => free' other (List.mem_cons_of_mem _ member))
                    (List.append_cancel_left rests)
                  rw [tails]

private theorem notMem_intercalate {separator : List Char} {parts : List (List Char)} {c : Char}
    (other : c ∉ separator) (free : ∀ part ∈ parts, c ∉ part) :
    c ∉ separator.intercalate parts := by
  induction parts with
  | nil => simp
  | cons part parts ih =>
      have here := free part List.mem_cons_self
      have there := ih fun other member => free other (List.mem_cons_of_mem _ member)
      cases parts with
      | nil => simpa using here
      | cons _ _ => simp [List.intercalate_cons_cons, here, other, there]

end Text

open Text

/-! ## Contexts -/

theorem CallSite.toList_render (call : CallSite) : call.render.toList =
    'm' :: (Nat.toDigits 10 call.caller ++ '@' :: Nat.toDigits 10 call.site) := by
  simp [render]

private theorem CallSite.render_injective {call other : CallSite}
    (same : call.render = other.render) : call = other := by
  have same := congrArg String.toList same
  simp only [toList_render, List.cons.injEq, true_and] at same
  obtain ⟨sameCaller, rest⟩ := split_number (endsNumber_cons rfl _) (endsNumber_cons rfl _) same
  have sameSite := toDigits_inj.mp (List.cons.inj rest).2
  cases call
  cases other
  simp_all

def AllocationKind.suffix : AllocationKind → List Char
  | .dimension depth => '#' :: Nat.toDigits 10 depth
  | _ => []

def AllocationKind.word : AllocationKind → String
  | .clone => "clone "
  | _ => "new "

namespace AllocationKind

private theorem endsNumber_suffix (kind : AllocationKind) : EndsNumber kind.suffix := by
  cases kind with
  | dimension depth => exact endsNumber_cons rfl _
  | _ => exact endsNumber_nil

theorem split_word {kind other : AllocationKind} {rest rest' : List Char}
    (same : kind.word.toList ++ rest = other.word.toList ++ rest') :
    kind.word = other.word ∧ rest = rest' := by
  cases kind with
  | clone =>
      cases other with
      | clone => exact ⟨rfl, List.append_cancel_left same⟩
      | _ => simp [word] at same
  | _ =>
      cases other with
      | clone => simp [word] at same
      | _ => exact ⟨rfl, List.append_cancel_left same⟩

private theorem eq_of_parts {kind other : AllocationKind} (sameWord : kind.word = other.word)
    (sameSuffix : kind.suffix = other.suffix) : kind = other := by
  cases kind with
  | new =>
      cases other with
      | new => rfl
      | dimension _ => cases sameSuffix
      | clone => simp [word] at sameWord
  | clone =>
      cases other with
      | clone => rfl
      | _ => simp [word] at sameWord
  | dimension depth =>
      cases other with
      | dimension depth' => rw [toDigits_inj.mp (List.cons.inj sameSuffix).2]
      | _ => cases sameSuffix

end AllocationKind

theorem AllocationSite.toList_render (allocation : AllocationSite) : allocation.render.toList =
    allocation.kind.word.toList ++ 't' :: (Nat.toDigits 10 allocation.type ++ '@' :: 'm' ::
      (Nat.toDigits 10 allocation.method ++ ':' ::
        (Nat.toDigits 10 allocation.site ++ allocation.kind.suffix))) := by
  unfold render
  cases allocation.kind <;> simp [AllocationKind.word, AllocationKind.suffix]

private theorem AllocationSite.render_injective {allocation other : AllocationSite}
    (same : allocation.render = other.render) : allocation = other := by
  have same := congrArg String.toList same
  simp only [toList_render] at same
  obtain ⟨method, site, type, kind⟩ := allocation
  obtain ⟨method', site', type', kind'⟩ := other
  dsimp only at same
  obtain ⟨sameWord, afterWord⟩ := AllocationKind.split_word same
  obtain ⟨rfl, afterType⟩ := split_number (endsNumber_cons rfl _) (endsNumber_cons rfl _)
    (List.cons.inj afterWord).2
  obtain ⟨rfl, afterMethod⟩ := split_number (endsNumber_cons rfl _) (endsNumber_cons rfl _)
    (List.cons.inj (List.cons.inj afterType).2).2
  obtain ⟨rfl, sameSuffix⟩ := split_number kind.endsNumber_suffix kind'.endsNumber_suffix
    (List.cons.inj afterMethod).2
  rw [AllocationKind.eq_of_parts sameWord sameSuffix]

namespace ContextElement

theorem toList_render_type (id : TypeId) :
    (ContextElement.type id).render.toList = 't' :: Nat.toDigits 10 id := by
  simp [render]

private theorem render_injective {element other : ContextElement}
    (same : element.render = other.render) : element = other := by
  have texts := congrArg String.toList same
  cases element <;> cases other
  case call.call => rw [CallSite.render_injective same]
  case allocation.allocation => rw [AllocationSite.render_injective same]
  case type.type =>
    simp only [toList_render_type, List.cons.injEq, true_and] at texts
    rw [toDigits_inj.mp texts]
  all_goals
    simp only [render, CallSite.toList_render, AllocationSite.toList_render, AllocationKind.word]
      at texts
    (try split at texts) <;> simp at texts

private theorem render_free (element : ContextElement) :
    (',' ∉ element.render.toList ∧ ']' ∉ element.render.toList) ∧ element.render.toList ≠ [] := by
  have comma := fun number => notMem_toDigits number (show ','.isDigit = false from rfl)
  have bracket := fun number => notMem_toDigits number (show ']'.isDigit = false from rfl)
  cases element with
  | call site => simp [render, CallSite.toList_render, comma, bracket]
  | type id => simp [toList_render_type, comma, bracket]
  | allocation site =>
      rw [render, AllocationSite.toList_render]
      cases site.kind <;>
        simp [AllocationKind.word, AllocationKind.suffix, comma, bracket]

end ContextElement

namespace Context

private theorem toList_render (context : Context) : context.render.toList =
    '[' :: (", ".toList.intercalate (context.elements.map fun element => element.render.toList) ++
      [']']) := by
  simp [render, String.toList_intercalate, Function.comp_def]

theorem split_render {context other : Context} {rest rest' : List Char}
    (same : context.render.toList ++ rest = other.render.toList ++ rest') :
    context = other ∧ rest = rest' := by
  have free : ∀ context : Context, ']' ∉ ", ".toList.intercalate
      (context.elements.map fun element => element.render.toList) := by
    intro context
    refine notMem_intercalate (by decide) fun part member => ?_
    obtain ⟨element, _, rfl⟩ := List.mem_map.mp member
    exact element.render_free.1.2
  simp only [toList_render, List.cons_append, List.append_assoc, List.nil_append,
    List.cons.injEq, true_and] at same
  obtain ⟨inner, sameRest⟩ := split_first (free context) (free other) same
  refine ⟨?_, sameRest⟩
  have filled : ∀ context : Context, ∀ part ∈ context.elements.map fun element =>
      element.render.toList, ',' ∉ part ∧ part ≠ [] := by
    intro context part member
    obtain ⟨element, _, rfl⟩ := List.mem_map.mp member
    exact ⟨element.render_free.1.1, element.render_free.2⟩
  have sameParts := intercalate_injective (filled context) (filled other) inner
  have injective : Function.Injective fun element : ContextElement => element.render.toList :=
    fun _ _ same => ContextElement.render_injective (String.toList_inj.mp same)
  exact congrArg Context.mk (List.map_injective_iff.mpr injective sameParts)

end Context

end ObjectFlow
