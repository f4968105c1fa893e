import Mathlib.Data.List.Infix
import Tripwire.Proofs.Script.Responses

/-!
# Calls that become assignments

Where the arguments of all calls are balanced text, each call becomes the assignment of what it reports, and the
text between the calls stays as it is.
-/
namespace Tripwire.Script
open Text

structure Reporting where
  gap : List Char
  argument : List Char
  behind : List Char

/-- In a text no call begins, be it closed or not. -/
def Quiet (text : List Char) : Prop := ∀ head, Head head → ¬head <:+: text

namespace Reporting

def call (r : Reporting) : List Char :=
  reportCall.toList ++ (r.gap ++ '(' :: (r.argument ++ [')']))

def value (r : Reporting) : List Char :=
  match responseProperty? (trim r.argument) with
  | some response => response
  | none => trim r.argument

def assigned (key : List Char) (r : Reporting) : List Char :=
  resultsName.toList ++ '[' :: (quoted key ++ (']' :: ' ' :: '=' :: ' ' :: r.value))

structure WellBracketed (r : Reporting) : Prop where
  blank : Blank r.gap
  balanced : Balanced [] r.argument
  quiet : Quiet r.behind

end Reporting

variable {c : Char} {text front head rest : List Char} {r : Reporting}

theorem Quiet.of_cons (quiet : Quiet (c :: front)) : Quiet front :=
  fun head begins infix_ => quiet head begins (infix_.trans (List.suffix_cons c front).isInfix)

theorem Quiet.findCall_eq_none (quiet : Quiet front) : findCall front = none := by
  induction front with
  | nil => rfl
  | cons c front ih =>
      have missing : afterCall? (c :: front) = none := by
        rw [Option.eq_none_iff_forall_ne_some]
        intro after found
        obtain ⟨head, begins, same⟩ := afterCall?_eq_some_iff.mp found
        exact quiet head begins (same ▸ (List.prefix_append head after).isInfix)
      simp [findCall, missing, ih quiet.of_cons]

theorem quiet_iff : Quiet text ↔ findCall text = none := by
  refine ⟨Quiet.findCall_eq_none, ?_⟩
  rintro none head begins ⟨before, after, rfl⟩
  have found : afterCall? (head ++ after) = some after :=
    afterCall?_eq_some_iff.mpr ⟨head, begins, rfl⟩
  have suffix : head ++ after <:+ before ++ head ++ after := by
    rw [List.append_assoc]
    exact List.suffix_append before _
  cases (afterCall?_of_findCall_eq_none none suffix).symm.trans found

theorem Quiet.afterCall?_eq_none (quiet : Quiet (c :: front)) (begins : Head head) (rest : List Char) :
    afterCall? (c :: front ++ (head ++ rest)) = none := by
  rw [Option.eq_none_iff_forall_ne_some]
  intro after found
  obtain ⟨other, begins', same⟩ := afterCall?_eq_some_iff.mp found
  rcases List.append_eq_append_iff.mp same with ⟨more, rfl, behind⟩ | ⟨more, whole, -⟩
  · cases more with
    | nil => exact quiet _ begins' (by simp)
    | cons d more =>
        obtain ⟨tail, rfl, -⟩ := begins.eq_cons
        obtain ⟨tail', same', absent⟩ := begins'.eq_cons
        obtain ⟨rfl, -⟩ := List.cons.inj behind
        obtain ⟨-, rfl⟩ := List.cons.inj same'
        simp at absent
  · exact quiet other begins' (whole ▸ (List.prefix_append other more).isInfix)

theorem Quiet.findCall_append (quiet : Quiet front) (begins : Head head) (rest : List Char) :
    findCall (front ++ (head ++ rest)) = some (front, rest) := by
  induction front with
  | nil =>
      have found : afterCall? (head ++ rest) = some rest :=
        afterCall?_eq_some_iff.mpr ⟨head, begins, rfl⟩
      obtain ⟨tail, rfl, -⟩ := begins.eq_cons
      simp only [List.cons_append] at found
      simp [findCall, found]
  | cons c front ih =>
      have missing := quiet.afterCall?_eq_none begins rest
      simp only [List.cons_append] at missing
      simp [findCall, missing, ih quiet.of_cons]

theorem Reporting.WellBracketed.cut (wellBracketed : r.WellBracketed) (quiet : Quiet front)
    (rest : List Char) : Script.cut (front ++ (r.call ++ rest)) = .closed front r.argument rest := by
  have begins : Head (reportCall.toList ++ r.gap ++ ['(']) := ⟨r.gap, wellBracketed.blank, rfl⟩
  have same : r.call ++ rest =
      (reportCall.toList ++ r.gap ++ ['(']) ++ (r.argument ++ Bracket.round.closing :: rest) := by
    simp [call, Bracket.closing]
  have closed : splitTop ')' .start (r.argument ++ Bracket.round.closing :: rest) =
      some (r.argument, rest) :=
    wellBracketed.balanced.splitTop_closing .round rest
  simp only [Script.cut, same, quiet.findCall_append begins, closed]

theorem Reporting.assigned_eq (key : List Char) (r : Reporting) :
    r.assigned key = place key ++ reportedValue r.argument := by
  have value : r.value = reportedValue r.argument := by
    unfold Reporting.value reportedValue
    cases found : responseProperty? (trim r.argument) <;> simp [found]
  simp [assigned, place, value]

theorem calls_become_assignments (key : String) (front : List Char) (reports : List Reporting)
    (quiet : Quiet front) (wellBracketed : ∀ r ∈ reports, r.WellBracketed) :
    redirect key (String.ofList (front ++ reports.flatMap fun r => r.call ++ r.behind)) =
      String.ofList (front ++ reports.flatMap fun r => r.assigned key.toList ++ r.behind) := by
  rw [redirect, String.toList_ofList, String.ofList_inj]
  induction reports generalizing front with
  | nil =>
      have whole : cut front = .whole := by simp only [cut, quiet.findCall_eq_none]
      rw [List.flatMap_nil, List.flatMap_nil, List.append_nil, redirectChars_of_whole _ whole]
  | cons r reports ih =>
      obtain ⟨here, wellBracketed⟩ := List.forall_mem_cons.mp wellBracketed
      rw [List.flatMap_cons, List.flatMap_cons, List.append_assoc,
        redirectChars_of_closed key.toList (here.cut quiet _), ih r.behind here.quiet wellBracketed,
        r.assigned_eq]
      simp only [List.append_assoc]

def sampleObject : Reporting :=
  ⟨[], " \x7b note: ')', response: \"\\\")\" \x7d ".toList, "; ".toList⟩

def sampleCall : Reporting := ⟨['\n'], "f(`(`, [1])".toList, ";".toList⟩

theorem value_sampleObject : sampleObject.value = "\"\\\")\"".toList := by
  have first : splitTop ',' .start " note: ')', response: \"\\\")\" ".toList =
      some (" note: ')'".toList, " response: \"\\\")\" ".toList) := by decide
  have last : splitTop ',' .start " response: \"\\\")\" ".toList = none := by decide
  have parts : fieldsOf " note: ')', response: \"\\\")\" ".toList =
      [" note: ')'".toList] ++ " response: \"\\\")\" ".toList :: [] := by
    rw [fieldsOf_of_comma first, fieldsOf_of_free (splitTop_eq_none_iff.mp last)]
    rfl
  have others : ∀ other ∈ [" note: ')'".toList], ∀ value, ¬Keyed other value :=
    List.forall_mem_singleton.mpr (afterResponseKey?_eq_none_iff.mp (by decide))
  have keyed : Keyed " response: \"\\\")\" ".toList " \"\\\")\" ".toList :=
    afterResponseKey?_eq_some_iff.mp (by decide)
  have braces : splitTop '}' .start " note: ')', response: \"\\\")\" \x7d".toList =
      some (" note: ')', response: \"\\\")\" ".toList, []) := by decide
  have trimmed : trim sampleObject.argument =
      '{' :: " note: ')', response: \"\\\")\" \x7d".toList := by decide
  have found : responseProperty? (trim sampleObject.argument) = some "\"\\\")\"".toList := by
    have blank : (trim []).isEmpty := rfl
    rw [trimmed, responseProperty?]
    simp only [braces]
    rw [if_pos blank, responseField?_of_first parts others keyed]
    decide
  rw [Reporting.value, found]

theorem balanced_sampleObject : Balanced [] sampleObject.argument := by
  have response : Balanced [] "\"\\\")\" ".toList :=
    @Balanced.quoted _ '"' ['\\', '"', ')'] _ rfl (.escape (.inner (by decide) (by decide) .nil))
      (balanced_of_all (by decide))
  have middle : Balanced [] ", response: ".toList := balanced_of_all (by decide)
  have note : Balanced [] "')', response: \"\\\")\" ".toList :=
    @Balanced.quoted _ '\'' [')'] _ rfl (enclosed_of_all (by decide)) (middle.append response)
  have first : Balanced [] " note: ".toList := balanced_of_all (by decide)
  have object : Balanced [] "\x7b note: ')', response: \"\\\")\" \x7d ".toList :=
    @Balanced.bracketed _ " note: ')', response: \"\\\")\" ".toList _ .curly (first.append note)
      (balanced_of_all (by decide))
  exact .plain rfl (by decide) object

theorem balanced_sampleCall : Balanced [] sampleCall.argument := by
  have list : Balanced [] "[1]".toList :=
    @Balanced.bracketed _ ['1'] _ .square (balanced_of_all (by decide)) .nil
  have listed : Balanced [] ", [1]".toList := .plain rfl (by decide) (.plain rfl (by decide) list)
  have inner : Balanced [] "`(`, [1]".toList :=
    @Balanced.quoted _ '`' ['('] _ rfl (enclosed_of_all (by decide)) listed
  exact .plain rfl (by decide) (@Balanced.bracketed _ "`(`, [1]".toList _ .round inner .nil)

theorem sampleCalls_become_assignments :
    (∀ r ∈ [sampleObject, sampleCall], r.WellBracketed) ∧
      redirect "custom1" (String.ofList ("if (a) ".toList ++
        [sampleObject, sampleCall].flatMap fun r => r.call ++ r.behind)) =
      "if (a) results[\"custom1\"] = \"\\\")\"; results[\"custom1\"] = f(`(`, [1]);" := by
  have wellBracketed : ∀ r ∈ [sampleObject, sampleCall], r.WellBracketed :=
    List.forall_mem_cons.mpr
      ⟨⟨List.forall_mem_nil _, balanced_sampleObject, quiet_iff.mpr (by decide)⟩,
        List.forall_mem_singleton.mpr
          ⟨List.all_eq_true.mp (by decide), balanced_sampleCall, quiet_iff.mpr (by decide)⟩⟩
  have quiet : Quiet "if (a) ".toList := quiet_iff.mpr (by decide)
  have value : sampleCall.value = "f(`(`, [1])".toList := by decide
  refine ⟨wellBracketed, ?_⟩
  rw [calls_become_assignments "custom1" _ _ quiet wellBracketed, List.flatMap_cons,
    List.flatMap_singleton, Reporting.assigned, Reporting.assigned, value_sampleObject, value]
  decide +kernel

end Tripwire.Script
