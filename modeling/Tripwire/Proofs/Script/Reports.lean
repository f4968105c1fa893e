import Mathlib.Data.List.Infix
import Mathlib.Data.List.TakeWhile
import Tripwire.Proofs.Script.Pieces

/-!
# Reports that are left

A call that reports a result, and whose parentheses close, can still be there when reports were redirected. It
then stands behind a call that does not close, or it begins within a value that was reported.
-/
namespace Tripwire.Script

variable {start text rest before after back front other argument value key : List Char} {c : Char}

/-! ## How a call begins -/

theorem stripPrefix?_eq_some_iff : stripPrefix? start text = some rest ↔ text = start ++ rest := by
  induction start generalizing text with
  | nil => simp [stripPrefix?]
  | cons p start ih =>
      cases text with
      | nil => simp [stripPrefix?]
      | cons c text =>
          by_cases same : p = c
          · simp [stripPrefix?, same, ih]
          · simp [stripPrefix?, same, Ne.symm same]

def Head (head : List Char) : Prop :=
  ∃ gap, (∀ c ∈ gap, Text.isBlank c) ∧ head = reportCall.toList ++ gap ++ ['(']

theorem afterCall?_eq_some_iff :
    afterCall? text = some after ↔ ∃ head, Head head ∧ text = head ++ after := by
  constructor
  · intro found
    unfold afterCall? at found
    split at found
    · cases found
    · rename_i rest stripped
      split at found
      · rename_i rest' opened
        obtain rfl := Option.some.inj found
        refine ⟨_, ⟨rest.takeWhile Text.isBlank, fun c mem => List.mem_takeWhile_imp mem, rfl⟩, ?_⟩
        rw [stripPrefix?_eq_some_iff.mp stripped, List.append_assoc, List.append_assoc,
          List.singleton_append, ← opened, List.takeWhile_append_dropWhile]
      · cases found
  · rintro ⟨head, ⟨gap, blank, rfl⟩, rfl⟩
    have stripped : stripPrefix? reportCall.toList
        (reportCall.toList ++ gap ++ ['('] ++ after) = some (gap ++ '(' :: after) := by
      rw [stripPrefix?_eq_some_iff]
      simp
    have opened : (gap ++ '(' :: after).dropWhile Text.isBlank = '(' :: after := by
      rw [List.dropWhile_append_of_pos blank]
      rfl
    simp only [afterCall?, stripped, opened]

namespace Head
variable {head : List Char}

theorem eq_cons (begins : Head head) : ∃ tail, head = 'L' :: tail ∧ 'L' ∉ tail := by
  obtain ⟨gap, blank, rfl⟩ := begins
  refine ⟨"it.Actions.setResponse".toList ++ gap ++ ['('], rfl, ?_⟩
  have apart : 'L' ∉ gap := fun mem => absurd (blank _ mem) (by decide)
  simp [apart]

theorem not_mem (begins : Head head) : 'r' ∉ head := by
  obtain ⟨gap, blank, rfl⟩ := begins
  have apart : 'r' ∉ gap := fun mem => absurd (blank _ mem) (by decide)
  have name : 'r' ∉ reportCall.toList := by decide +kernel
  simp [apart, name]

end Head

theorem afterCall?_cons_of_ne (differs : c ≠ 'L') : afterCall? (c :: text) = none := by
  rw [Option.eq_none_iff_forall_ne_some]
  intro after found
  obtain ⟨head, begins, same⟩ := afterCall?_eq_some_iff.mp found
  obtain ⟨tail, rfl, -⟩ := begins.eq_cons
  exact differs (List.cons.inj same).1

theorem afterCall?_before_results (found : afterCall? (back ++ 'r' :: rest) = some after) :
    afterCall? (back ++ other) ≠ none := by
  obtain ⟨head, begins, whole⟩ := afterCall?_eq_some_iff.mp found
  rcases List.append_eq_append_iff.mp whole with ⟨more, rfl, same⟩ | ⟨more, rfl, -⟩
  · cases more with
    | nil =>
        have called : afterCall? (back ++ other) = some other :=
          afterCall?_eq_some_iff.mpr ⟨back, by simpa using begins, rfl⟩
        rw [called]
        exact Option.some_ne_none _
    | cons c more =>
        obtain ⟨rfl, -⟩ := List.cons.inj same
        exact absurd (by simp) begins.not_mem
  · have called : afterCall? (head ++ (more ++ other)) = some (more ++ other) :=
      afterCall?_eq_some_iff.mpr ⟨head, begins, rfl⟩
    rw [List.append_assoc, called]
    exact Option.some_ne_none _

theorem afterCall?_of_findCall (called : findCall text = some (before, after)) :
    ∃ call, text = before ++ call ∧ afterCall? call = some after ∧
      ∀ back, back ≠ [] → back <:+ before → afterCall? (back ++ call) = none := by
  induction text generalizing before with
  | nil => simp [findCall] at called
  | cons c text ih =>
      simp only [findCall] at called
      split at called
      · rename_i found
        obtain ⟨rfl, rfl⟩ := Prod.mk.inj (Option.some.inj called)
        refine ⟨c :: text, rfl, found, ?_⟩
        intro back nonempty suffix
        exact absurd (List.suffix_nil.mp suffix) nonempty
      · rename_i missing
        obtain ⟨next, later, same⟩ := Option.map_eq_some_iff.mp called
        obtain ⟨rfl, rfl⟩ := Prod.mk.inj same
        obtain ⟨call, rfl, found, first⟩ := ih later
        refine ⟨call, rfl, found, ?_⟩
        intro back nonempty suffix
        rcases List.suffix_cons_iff.mp suffix with rfl | suffix
        · exact missing
        · exact first back nonempty suffix

theorem afterCall?_of_findCall_eq_none (none : findCall text = none) (suffix : back <:+ text) :
    afterCall? back = Option.none := by
  induction text with
  | nil =>
      rw [List.suffix_nil.mp suffix]
      rfl
  | cons c text ih =>
      simp only [findCall] at none
      split at none
      · cases none
      · rename_i missing
        rcases List.suffix_cons_iff.mp suffix with rfl | suffix
        · exact missing
        · exact ih (Option.map_eq_none_iff.mp none) suffix

/-! ## Calls that close -/

def closes (text : List Char) : Bool :=
  match afterCall? text with
  | some after => (splitTop ')' .start after).isSome
  | none => false

def Closing (text : List Char) : Prop := ∃ back ∈ text.tails, closes back

instance : Decidable (Closing text) := by
  unfold Closing
  infer_instance

def ClosingWithin (front rest : List Char) : Prop :=
  ∃ back, back ≠ [] ∧ back <:+ front ∧ closes (back ++ rest)

theorem not_closes_of_eq_none (missing : afterCall? text = none) : closes text = false := by
  rw [closes, missing]

theorem closing_cons_iff : Closing (c :: text) ↔ closes (c :: text) ∨ Closing text := by
  simp [Closing]

theorem closingWithin_cons_iff :
    ClosingWithin (c :: front) rest ↔ closes (c :: (front ++ rest)) ∨ ClosingWithin front rest := by
  constructor
  · rintro ⟨back, nonempty, suffix, closed⟩
    rcases List.suffix_cons_iff.mp suffix with rfl | suffix
    · exact .inl closed
    · exact .inr ⟨back, nonempty, suffix, closed⟩
  · rintro (closed | ⟨back, nonempty, suffix, closed⟩)
    · exact ⟨c :: front, List.cons_ne_nil _ _, List.suffix_refl _, closed⟩
    · exact ⟨back, nonempty, List.suffix_cons_iff.mpr (.inr suffix), closed⟩

theorem closing_append_iff : Closing (front ++ rest) ↔ ClosingWithin front rest ∨ Closing rest := by
  induction front with
  | nil =>
      have none : ¬ClosingWithin [] rest := by
        rintro ⟨back, nonempty, suffix, -⟩
        exact nonempty (List.suffix_nil.mp suffix)
      rw [List.nil_append, or_iff_right none]
  | cons c front ih => rw [List.cons_append, closing_cons_iff, ih, closingWithin_cons_iff, or_assoc]

theorem not_closingWithin_of_not_mem (absent : 'L' ∉ front) : ¬ClosingWithin front rest := by
  rintro ⟨back, nonempty, suffix, closed⟩
  cases back with
  | nil => exact nonempty rfl
  | cons c back =>
      have differs : c ≠ 'L' := by
        rintro rfl
        exact absent (suffix.mem List.mem_cons_self)
      rw [List.cons_append, not_closes_of_eq_none (afterCall?_cons_of_ne differs)] at closed
      cases closed

/-! ## The first call -/

inductive Cut where
  | whole
  | unclosed (before after : List Char)
  | closed (before argument rest : List Char)
  deriving DecidableEq

def cut (text : List Char) : Cut :=
  match findCall text with
  | none => .whole
  | some (before, after) =>
      match splitTop ')' .start after with
      | none => .unclosed before after
      | some (argument, rest) => .closed before argument rest

theorem findCall_of_whole (whole : cut text = .whole) : findCall text = none := by
  unfold cut at whole
  split at whole
  · assumption
  · split at whole <;> cases whole

theorem findCall_of_unclosed (unclosed : cut text = .unclosed before after) :
    findCall text = some (before, after) ∧ splitTop ')' .start after = none := by
  unfold cut at unclosed
  split at unclosed
  · cases unclosed
  · rename_i called
    split at unclosed
    · rename_i stays
      obtain ⟨rfl, rfl⟩ := Cut.unclosed.inj unclosed
      exact ⟨called, stays⟩
    · cases unclosed

theorem findCall_of_closed (closed : cut text = .closed before argument rest) :
    ∃ after, findCall text = some (before, after) ∧
      splitTop ')' .start after = some (argument, rest) := by
  unfold cut at closed
  split at closed
  · cases closed
  · rename_i after called
    split at closed
    · cases closed
    · rename_i parted
      obtain ⟨rfl, rfl, rfl⟩ := Cut.closed.inj closed
      exact ⟨after, called, parted⟩

theorem length_of_closed (closed : cut text = .closed before argument rest) :
    rest.length < text.length := by
  obtain ⟨after, called, parted⟩ := findCall_of_closed closed
  have := length_findCall called
  have := length_splitTop parted
  omega

def place (key : List Char) : List Char :=
  resultsName.toList ++ '[' :: Text.quoted key ++ [']', ' ', '=', ' ']

theorem assignment_eq (key value : List Char) : assignment key value = place key ++ value := by
  simp [assignment, place]

theorem redirectChars_eq (key text : List Char) :
    redirectChars key text = match cut text with
      | .whole | .unclosed .. => text
      | .closed before argument rest =>
          before ++ (assignment key (reportedValue argument) ++ redirectChars key rest) := by
  rw [redirectChars]
  split
  · rename_i none
    simp only [cut, none]
  · rename_i called
    split
    · rename_i stays
      simp only [cut, called, stays]
    · rename_i parted
      simp only [cut, called, parted, List.append_assoc]

theorem redirectChars_of_closed (key : List Char) (closed : cut text = .closed before argument rest) :
    redirectChars key text =
      before ++ (place key ++ (reportedValue argument ++ redirectChars key rest)) := by
  rw [redirectChars_eq, closed, ← List.append_assoc (place key), ← assignment_eq]

theorem redirectChars_of_not_closed (key : List Char)
    (stays : ∀ before argument rest, cut text ≠ .closed before argument rest) :
    redirectChars key text = text := by
  rw [redirectChars_eq]
  split
  · rfl
  · rfl
  · rename_i closed
    exact absurd closed (stays _ _ _)

theorem redirectChars_of_whole (key : List Char) (whole : cut text = .whole) :
    redirectChars key text = text :=
  redirectChars_of_not_closed key (by simp [whole])

theorem not_closingWithin_before (called : findCall text = some (before, after)) :
    ¬ClosingWithin before ('r' :: rest) := by
  obtain ⟨call, -, -, first⟩ := afterCall?_of_findCall called
  rintro ⟨back, nonempty, suffix, closed⟩
  unfold closes at closed
  split at closed
  · rename_i after found
    exact afterCall?_before_results found (first back nonempty suffix)
  · cases closed

theorem not_closing_of_whole (whole : cut text = .whole) : ¬Closing text := by
  rintro ⟨back, mem, closed⟩
  have suffix := (List.mem_tails _ _).mp mem
  have missing := afterCall?_of_findCall_eq_none (findCall_of_whole whole) suffix
  rw [not_closes_of_eq_none missing] at closed
  cases closed

theorem closing_iff_of_unclosed (unclosed : cut text = .unclosed before after) :
    Closing text ↔ Closing after := by
  obtain ⟨called, stays⟩ := findCall_of_unclosed unclosed
  obtain ⟨call, rfl, found, first⟩ := afterCall?_of_findCall called
  obtain ⟨head, begins, rfl⟩ := afterCall?_eq_some_iff.mp found
  have ahead : ¬ClosingWithin before (head ++ after) := by
    rintro ⟨back, nonempty, suffix, closed⟩
    rw [not_closes_of_eq_none (first back nonempty suffix)] at closed
    cases closed
  have within : ¬ClosingWithin head after := by
    obtain ⟨tail, rfl, absent⟩ := begins.eq_cons
    rw [closingWithin_cons_iff, not_or]
    refine ⟨?_, not_closingWithin_of_not_mem absent⟩
    rw [← List.cons_append, closes, found]
    simp [stays]
  rw [closing_append_iff, or_iff_right ahead, closing_append_iff, or_iff_right within]

theorem closing_of_closed (closed : cut text = .closed before argument rest) : Closing text := by
  obtain ⟨after, called, parted⟩ := findCall_of_closed closed
  obtain ⟨call, rfl, found, -⟩ := afterCall?_of_findCall called
  refine ⟨call, (List.mem_tails _ _).mpr (List.suffix_append _ _), ?_⟩
  rw [closes, found]
  simp [parted]

/-! ## What is left -/

/-- Where a call that closes is left: behind a call that does not close, or where it begins within a value
that is reported. It may reach from there into what follows the value. -/
inductive Left (key : List Char) : List Char → Prop where
  | behind {text before after : List Char} (unclosed : cut text = .unclosed before after)
      (closing : Closing after) : Left key text
  | within {text before argument rest : List Char} (closed : cut text = .closed before argument rest)
      (closing : ClosingWithin (reportedValue argument) (redirectChars key rest)) : Left key text
  | later {text before argument rest : List Char} (closed : cut text = .closed before argument rest)
      (left : Left key rest) : Left key text

theorem closing_redirectChars_of_closed (absent : 'L' ∉ place key)
    (closed : cut text = .closed before argument rest) :
    Closing (redirectChars key text) ↔
      ClosingWithin (reportedValue argument) (redirectChars key rest) ∨
        Closing (redirectChars key rest) := by
  obtain ⟨after, called, -⟩ := findCall_of_closed closed
  obtain ⟨named, same⟩ : ∃ named, place key = 'r' :: named := ⟨_, rfl⟩
  have ahead {rest : List Char} : ¬ClosingWithin before (place key ++ rest) := by
    rw [same, List.cons_append]
    exact not_closingWithin_before called
  rw [redirectChars_of_closed key closed, closing_append_iff, or_iff_right ahead, closing_append_iff,
    or_iff_right (not_closingWithin_of_not_mem absent), closing_append_iff]

theorem closing_redirectChars_iff (absent : 'L' ∉ place key) :
    Closing (redirectChars key text) ↔ Left key text := by
  -- The text behind the first call is shorter, and it is redirected in the same way.
  induction size : text.length using Nat.strong_induction_on generalizing text with
  | _ size ih =>
      subst size
      cases found : cut text with
      | whole =>
          rw [redirectChars_of_whole key found]
          constructor
          · intro closing
            exact absurd closing (not_closing_of_whole found)
          · rintro (⟨other, -⟩ | ⟨other, -⟩ | ⟨other, -⟩)
            all_goals cases found.symm.trans other
      | unclosed before after =>
          rw [redirectChars_of_not_closed key (by simp [found]), closing_iff_of_unclosed found]
          constructor
          · exact .behind found
          · rintro (⟨other, closing⟩ | ⟨other, -⟩ | ⟨other, -⟩)
            · cases found.symm.trans other
              exact closing
            all_goals cases found.symm.trans other
      | closed before argument rest =>
          rw [closing_redirectChars_of_closed absent found, ih _ (length_of_closed found) rfl]
          constructor
          · rintro (closing | left)
            · exact .within found closing
            · exact .later found left
          · rintro (⟨other, -⟩ | ⟨other, closing⟩ | ⟨other, left⟩)
            all_goals cases found.symm.trans other
            · exact .inl closing
            · exact .inr left

theorem redirectChars_eq_self_iff :
    redirectChars key text = text ↔
      ∀ before argument rest, cut text ≠ .closed before argument rest := by
  constructor
  · intro same before argument rest closed
    rw [redirectChars_of_closed key closed] at same
    obtain ⟨after, called, -⟩ := findCall_of_closed closed
    obtain ⟨call, rfl, found, -⟩ := afterCall?_of_findCall called
    obtain ⟨head, begins, rfl⟩ := afterCall?_eq_some_iff.mp found
    obtain ⟨tail, rfl, -⟩ := begins.eq_cons
    -- A call that closes would have to begin like the name of the results.
    have letters := (List.cons.inj (List.append_cancel_left same)).1
    exact absurd letters (by decide)
  · exact redirectChars_of_not_closed key

theorem redirectChars_eq_self (none : ¬Closing text) : redirectChars key text = text := by
  rw [redirectChars_eq_self_iff]
  intro before argument rest closed
  exact none (closing_of_closed closed)

/-! ## Code in which nothing is left -/

def Clear (text : List Char) : Prop :=
  ∀ back ∈ text.tails, back ≠ [] → ¬reportCall.toList <+: back ∧ ¬back <+: reportCall.toList

instance : Decidable (Clear text) := by
  unfold Clear
  infer_instance

/-- Behind a call that does not close there is none that does, and in the values that are reported none
begins. -/
inductive Orderly : List Char → Prop where
  | whole {text : List Char} (whole : cut text = .whole) : Orderly text
  | unclosed {text before after : List Char} (unclosed : cut text = .unclosed before after)
      (none : ¬Closing after) : Orderly text
  | closed {text before argument rest : List Char} (closed : cut text = .closed before argument rest)
      (clear : Clear (reportedValue argument)) (orderly : Orderly rest) : Orderly text

theorem Clear.not_closingWithin (clear : Clear value) : ¬ClosingWithin value rest := by
  rintro ⟨back, nonempty, suffix, closed⟩
  obtain ⟨whole, cutOff⟩ := clear back ((List.mem_tails _ _).mpr suffix) nonempty
  unfold closes at closed
  split at closed
  · rename_i after found
    obtain ⟨head, ⟨gap, -, rfl⟩, same⟩ := afterCall?_eq_some_iff.mp found
    have named : reportCall.toList <+: back ++ rest := ⟨gap ++ ['('] ++ after, by simp [same]⟩
    rcases List.prefix_or_prefix_of_prefix named (List.prefix_append back rest) with longer | shorter
    · exact whole longer
    · exact cutOff shorter
  · cases closed

theorem Orderly.not_left (orderly : Orderly text) : ¬Left key text := by
  induction orderly with
  | whole found =>
      rintro (⟨other, -⟩ | ⟨other, -⟩ | ⟨other, -⟩)
      all_goals cases found.symm.trans other
  | unclosed found none =>
      rintro (⟨other, closing⟩ | ⟨other, -⟩ | ⟨other, -⟩)
      all_goals cases found.symm.trans other
      exact none closing
  | closed found clear _ ih =>
      rintro (⟨other, -⟩ | ⟨other, closing⟩ | ⟨other, left⟩)
      all_goals cases found.symm.trans other
      · exact clear.not_closingWithin closing
      · exact ih left

theorem not_mem_place (kind : Action.Kind) (priority : Nat) :
    'L' ∉ place (kind.unitName priority).toList := by
  have digits : 'L' ∉ Text.Numeral.write priority := by
    intro mem
    have digit := Nat.isDigit_of_mem_toDigits (by decide) (by decide) mem
    exact absurd digit (by decide)
  have letters : 'L' ∉ kind.text.toList := by cases kind <;> decide +kernel
  have results : 'L' ∉ resultsName.toList := by decide +kernel
  rw [place, Text.quoted_of_isAlphanum (kind.isAlphanum_unitName priority), Action.Kind.unitName,
    String.toList_ofList]
  simp [digits, letters, results]

/-- Calls that close are left exactly behind a call that does not close and within reported values, and to
redirect again changes nothing exactly if the first call that is left does not close. In orderly code none of
this happens. -/
theorem reports_left_iff (kind : Action.Kind) (priority : Nat) (code : String) :
    let key := kind.unitName priority
    (Closing (redirect key code).toList ↔ Left key.toList code.toList) ∧
      (redirect key (redirect key code) = redirect key code ↔
        ∀ before argument rest, cut (redirect key code).toList ≠ .closed before argument rest) ∧
      (Orderly code.toList → ¬Closing (redirect key code).toList ∧
        redirect key (redirect key code) = redirect key code) := by
  intro key
  have chars : (redirect key code).toList = redirectChars key.toList code.toList := String.toList_ofList
  have left : Closing (redirect key code).toList ↔ Left key.toList code.toList := by
    rw [chars]
    exact closing_redirectChars_iff (not_mem_place kind priority)
  have again : redirect key (redirect key code) = redirect key code ↔
      redirectChars key.toList (redirect key code).toList = (redirect key code).toList := by
    rw [← String.toList_inj, redirect, String.toList_ofList]
  refine ⟨left, again.trans redirectChars_eq_self_iff, ?_⟩
  intro orderly
  have none := left.not.mpr orderly.not_left
  exact ⟨none, again.mpr (redirectChars_eq_self none)⟩

def sampleChoice : String := "a ? Lit.Actions.setResponse(1) : Lit.Actions.setResponse(f(\"x)\"))"

theorem sampleChoice_redirected :
    Orderly sampleChoice.toList ∧ ¬Closing (redirect "custom1" sampleChoice).toList ∧
      redirect "custom1" (redirect "custom1" sampleChoice) = redirect "custom1" sampleChoice := by
  have orderly : Orderly sampleChoice.toList := by
    have first : cut sampleChoice.toList = .closed "a ? ".toList ['1']
        " : Lit.Actions.setResponse(f(\"x)\"))".toList := by decide +kernel
    have second : cut " : Lit.Actions.setResponse(f(\"x)\"))".toList =
        .closed " : ".toList "f(\"x)\")".toList [] := by decide +kernel
    refine .closed first ?_ (.closed second ?_ (.whole rfl))
    · decide +kernel
    · decide +kernel
  exact ⟨orderly, (reports_left_iff .custom 1 sampleChoice).2.2 orderly⟩

def sampleQuoted : String :=
  "console.log(\"Lit.Actions.setResponse(\"); Lit.Actions.setResponse(1)"

def sampleNested : String := "Lit.Actions.setResponse(f(Lit.Actions.setResponse(1)))"

def sampleJoined : String := "Lit.Actions.setResponse(Lit.Actions.setResponse)(1)"

theorem sampleReports_left :
    redirect "custom1" sampleQuoted = sampleQuoted ∧ Closing sampleQuoted.toList ∧
      Closing (redirect "custom1" sampleNested).toList ∧
      Closing (redirect "custom1" sampleJoined).toList ∧
      redirect "custom1" (redirect "custom1" sampleJoined) ≠ redirect "custom1" sampleJoined := by
  have quoted : cut sampleQuoted.toList = .unclosed "console.log(\"".toList
      "\"); Lit.Actions.setResponse(1)".toList := by decide +kernel
  have nested : cut sampleNested.toList = .closed [] "f(Lit.Actions.setResponse(1))".toList [] := by
    decide +kernel
  have joined : cut sampleJoined.toList = .closed [] "Lit.Actions.setResponse".toList "(1)".toList := by
    decide +kernel
  have again : cut "results[\"custom1\"] = Lit.Actions.setResponse(1)".toList =
      .closed "results[\"custom1\"] = ".toList ['1'] [] := by decide +kernel
  have nested' : redirect "custom1" sampleNested =
      "results[\"custom1\"] = f(Lit.Actions.setResponse(1))" := by
    rw [redirect, redirectChars_of_closed _ nested, redirectChars_of_whole _ rfl]
    decide +kernel
  have joined' : redirect "custom1" sampleJoined =
      "results[\"custom1\"] = Lit.Actions.setResponse(1)" := by
    rw [redirect, redirectChars_of_closed _ joined, redirectChars_of_whole _ rfl]
    decide +kernel
  refine ⟨?_, by decide +kernel, ?_, ?_, ?_⟩
  · rw [redirect, redirectChars_of_not_closed _ (by simp [quoted]), String.ofList_toList]
  · rw [nested']
    decide +kernel
  · rw [joined']
    decide +kernel
  · rw [joined', ne_eq, ← String.toList_inj, redirect, String.toList_ofList, redirectChars_eq_self_iff]
    intro same
    exact same _ _ _ again

end Tripwire.Script
