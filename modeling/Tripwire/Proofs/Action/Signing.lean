import Mathlib.Tactic.Tauto
import Tripwire.Action.SignCondition

/-!
# What a list of comparisons signs

The fold over a list of comparisons in closed form. A comparison joined by "or" that holds carries the whole
list unless one joined by "and" comes after it and fails. Where the list begins with "and", it is also enough
that none of these fails.
-/
namespace Tripwire.Action.SignCondition

variable {conditions before after : List SignCondition} {c : SignCondition} {actual : Value} {soFar : Bool}

def Unfailing (actual : Value) (conditions : List SignCondition) : Prop :=
  ∀ c ∈ conditions, c.joiner = .and → c.holds actual = true

/-- A comparison joined by "or" holds, and none joined by "and" fails after it. -/
def Carried (actual : Value) (conditions : List SignCondition) : Prop :=
  ∃ before c after, conditions = before ++ c :: after ∧ c.joiner = .or ∧ c.holds actual = true ∧
    Unfailing actual after

theorem unfailing_cons :
    Unfailing actual (c :: after) ↔ (c.joiner = .and → c.holds actual = true) ∧ Unfailing actual after :=
  List.forall_mem_cons

theorem not_carried_nil : ¬Carried actual [] := by
  rintro ⟨before, c, after, split, -⟩
  simp at split

theorem carried_cons :
    Carried actual (c :: after) ↔
      (c.joiner = .or ∧ c.holds actual = true ∧ Unfailing actual after) ∨ Carried actual after := by
  constructor
  · rintro ⟨before, d, rest, split, joined, holds, unfailing⟩
    cases before with
    | nil =>
        cases split
        exact .inl ⟨joined, holds, unfailing⟩
    | cons first before =>
        cases split
        exact .inr ⟨before, d, rest, rfl, joined, holds, unfailing⟩
  · rintro (⟨joined, holds, unfailing⟩ | ⟨before, d, rest, rfl, carried⟩)
    · exact ⟨[], c, after, rfl, joined, holds, unfailing⟩
    · exact ⟨c :: before, d, rest, rfl, carried⟩

theorem foldl_join_iff :
    conditions.foldl (join actual) soFar = true ↔
      Carried actual conditions ∨ (soFar = true ∧ Unfailing actual conditions) := by
  -- Each comparison leaves another start to the ones after it.
  induction conditions generalizing soFar with
  | nil => simp [not_carried_nil, Unfailing]
  | cons c rest ih =>
      rw [List.foldl_cons, ih, carried_cons, unfailing_cons]
      cases joined : c.joiner with
      | and =>
          simp only [join, joined, Bool.and_eq_true]
          tauto
      | or =>
          simp only [join, joined, Bool.or_eq_true]
          tauto

theorem signs_cons (c : SignCondition) (rest : List SignCondition) (actual : Value) :
    signs (c :: rest) actual = (c :: rest).foldl (join actual) (c.joiner = .and) := rfl

theorem signs_append (started : before ≠ []) (after : List SignCondition) (actual : Value) :
    signs (before ++ after) actual = after.foldl (join actual) (signs before actual) := by
  cases before with
  | nil => exact absurd rfl started
  | cons first before => rw [List.cons_append, signs_cons, signs_cons, ← List.cons_append, List.foldl_append]

theorem join_of_failing (joined : c.joiner = .and) (fails : c.holds actual = false) (soFar : Bool) :
    join actual soFar c = false := by
  simp only [join, joined, fails, Bool.and_false]

theorem join_of_idle (joined : c.joiner = .or) (fails : c.holds actual = false) (soFar : Bool) :
    join actual soFar c = soFar := by
  simp only [join, joined, fails, Bool.or_false]

theorem signs_of_failing (joined : c.joiner = .and) (fails : c.holds actual = false)
    (before after : List SignCondition) :
    signs (before ++ c :: after) actual = after.foldl (join actual) false := by
  cases before with
  | nil => rw [List.nil_append, signs_cons, List.foldl_cons, join_of_failing joined fails]
  | cons first before =>
      rw [signs_append (List.cons_ne_nil _ _), List.foldl_cons, join_of_failing joined fails]

/-- What is signed, in closed form. So a comparison joined by "and" that fails cancels all that stands before
it, and one joined by "or" that fails counts for nothing unless it is the first. -/
theorem signs_in_closed_form (conditions : List SignCondition) (actual : Value) :
    (signs conditions actual = true ↔ Carried actual conditions ∨
      ((∃ first rest, conditions = first :: rest ∧ first.joiner = .and) ∧ Unfailing actual conditions)) ∧
    signs [] actual = false ∧
    (∀ before c after, conditions = before ++ c :: after → c.joiner = .and → c.holds actual = false →
      signs conditions actual = signs (c :: after) actual ∧
        (signs conditions actual = true ↔ Carried actual after)) ∧
    ∀ before c after, conditions = before ++ c :: after → before ≠ [] → c.joiner = .or →
      c.holds actual = false → signs conditions actual = signs (before ++ after) actual := by
  refine ⟨?_, rfl, ?_, ?_⟩
  · cases conditions with
    | nil => simp [signs, not_carried_nil]
    | cons first rest =>
        rw [signs_cons, foldl_join_iff]
        simp
  · rintro before c after rfl joined fails
    rw [signs_of_failing joined fails before, foldl_join_iff]
    exact ⟨(signs_of_failing joined fails [] after).symm, by simp⟩
  · rintro before c after rfl started joined fails
    rw [signs_append started, List.foldl_cons, join_of_idle joined fails, signs_append started]

def sampleMixed : List SignCondition :=
  [⟨.and, .eq, .bool true⟩, ⟨.or, .eq, .null⟩, ⟨.or, .ne, .null⟩, ⟨.and, .eq, .null⟩, ⟨.or, .lt, .null⟩,
    ⟨.or, .eq, .bool true⟩, ⟨.and, .ne, .null⟩]

theorem sampleMixed_signs :
    signs sampleMixed (.bool true) = true ∧ Carried (.bool true) sampleMixed ∧
      signs sampleMixed (.bool true) = signs (sampleMixed.drop 3) (.bool true) ∧
      signs sampleMixed (.bool true) = signs (sampleMixed.eraseIdx 4) (.bool true) := by
  obtain ⟨closed, -, cancels, idles⟩ := signs_in_closed_form sampleMixed (.bool true)
  have carried : Carried (.bool true) sampleMixed := by
    refine ⟨sampleMixed.take 5, ⟨.or, .eq, .bool true⟩, _, rfl, rfl, by decide, ?_⟩
    simp only [Unfailing, List.forall_mem_singleton]
    decide
  refine ⟨closed.mpr (.inl carried), carried, ?_, ?_⟩
  · exact (cancels (sampleMixed.take 3) ⟨.and, .eq, .null⟩ _ rfl rfl (by decide)).1
  · exact idles (sampleMixed.take 4) ⟨.or, .lt, .null⟩ _ rfl (List.cons_ne_nil _ _) rfl (by decide)

example : signs [⟨.or, .eq, .null⟩, ⟨.and, .ne, .null⟩] (.bool true) = false ∧
    signs [⟨.and, .ne, .null⟩] (.bool true) = true := by decide

end Tripwire.Action.SignCondition
