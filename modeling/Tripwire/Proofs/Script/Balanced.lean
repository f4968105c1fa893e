import Mathlib.Data.List.Basic
import Tripwire.Script.Redirect

namespace Tripwire.Script

namespace Scan

def after (s : Scan) (text : List Char) : Scan := text.foldl step s

@[simp] theorem after_nil (s : Scan) : s.after [] = s := rfl

@[simp] theorem after_cons (s : Scan) (c : Char) (text : List Char) :
    s.after (c :: text) = (s.step c).after text := rfl

@[simp] theorem after_append (s : Scan) (text rest : List Char) :
    s.after (text ++ rest) = (s.after text).after rest :=
  List.foldl_append

end Scan

def Free (stop : Char) : Scan → List Char → Prop
  | _, [] => True
  | s, c :: text => ¬(s.atTop ∧ c = stop) ∧ Free stop (s.step c) text

variable {stop c : Char} {s : Scan} {text rest front back : List Char}

theorem free_append_iff :
    Free stop s (text ++ rest) ↔ Free stop s text ∧ Free stop (s.after text) rest := by
  induction text generalizing s with
  | nil => simp [Free]
  | cons c text ih => simp only [List.cons_append, Free, ih, Scan.after_cons, and_assoc]

theorem splitTop_cons_of_free (free : ¬(s.atTop ∧ c = stop)) :
    splitTop stop s (c :: text) = (splitTop stop (s.step c) text).map (Prod.map (c :: ·) id) := by
  rw [splitTop, if_neg (by simpa using free)]
  rfl

theorem splitTop_append (free : Free stop s text) :
    splitTop stop s (text ++ rest) =
      (splitTop stop (s.after text) rest).map (Prod.map (text ++ ·) id) := by
  induction text generalizing s with
  | nil =>
      have same : Prod.map (([] : List Char) ++ ·) (id : List Char → List Char) = id := rfl
      rw [List.nil_append, Scan.after_nil, same, Option.map_id]
      rfl
  | cons c text ih =>
      rw [List.cons_append, splitTop_cons_of_free free.1, ih free.2, Option.map_map, Scan.after_cons]
      rfl

theorem splitTop_of_free (free : Free stop s text) : splitTop stop s text = none := by
  have parted : splitTop stop s (text ++ []) = none := by rw [splitTop_append free, splitTop, Option.map_none]
  rwa [List.append_nil] at parted

theorem splitTop_of_stop (free : Free stop s front) (top : (s.after front).atTop) :
    splitTop stop s (front ++ stop :: back) = some (front, back) := by
  have parted : splitTop stop (s.after front) (stop :: back) = some ([], back) := by
    rw [splitTop, if_pos (by simp [top])]
  rw [splitTop_append free, parted, Option.map_some, Prod.map, List.append_nil, id]

theorem splitTop_eq_some_iff :
    splitTop stop s text = some (front, back) ↔
      text = front ++ stop :: back ∧ Free stop s front ∧ (s.after front).atTop := by
  constructor
  · intro parted
    induction text generalizing s front with
    | nil => cases parted
    | cons c text ih =>
        by_cases here : s.atTop ∧ c = stop
        · rw [splitTop, if_pos (by simpa using here)] at parted
          obtain ⟨rfl, rfl⟩ := Prod.mk.inj (Option.some.inj parted)
          exact ⟨by simp [here.2], trivial, here.1⟩
        · rw [splitTop_cons_of_free here] at parted
          obtain ⟨⟨front', back'⟩, later, same⟩ := Option.map_eq_some_iff.mp parted
          obtain ⟨rfl, rfl⟩ := Prod.mk.inj same
          obtain ⟨rfl, free, top⟩ := ih later
          exact ⟨rfl, ⟨here, free⟩, top⟩
  · rintro ⟨rfl, free, top⟩
    exact splitTop_of_stop free top

theorem splitTop_eq_none_iff : splitTop stop s text = none ↔ Free stop s text := by
  constructor
  · intro whole
    induction text generalizing s with
    | nil => trivial
    | cons c text ih =>
        have here : ¬(s.atTop ∧ c = stop) := by
          intro here
          rw [splitTop, if_pos (by simpa using here)] at whole
          cases whole
        rw [splitTop_cons_of_free here, Option.map_eq_none_iff] at whole
        exact ⟨here, ih whole⟩
  · exact splitTop_of_free

inductive Bracket where
  | round
  | curly
  | square
  deriving DecidableEq, Repr

def Bracket.opening : Bracket → Char
  | .round => '('
  | .curly => '{'
  | .square => '['

def Bracket.closing : Bracket → Char
  | .round => ')'
  | .curly => '}'
  | .square => ']'

def isPlain (c : Char) : Bool := !(Scan.isOpening c || Scan.isClosing c || Scan.isQuote c)

inductive Enclosed (quote : Char) : List Char → Prop
  | nil : Enclosed quote []
  | inner {c : Char} {text : List Char} (other : c ≠ quote) (unescaped : c ≠ '\\')
      (rest : Enclosed quote text) : Enclosed quote (c :: text)
  | escape {e : Char} {text : List Char} (rest : Enclosed quote text) :
      Enclosed quote ('\\' :: e :: text)

/-- Text in which brackets nest and quotes close, and in which none of the bars stands outside of them. -/
inductive Balanced : List Char → List Char → Prop
  | nil {bars : List Char} : Balanced bars []
  | plain {bars : List Char} {c : Char} {text : List Char} (plain : isPlain c) (free : c ∉ bars)
      (rest : Balanced bars text) : Balanced bars (c :: text)
  | bracketed {bars inner text : List Char} (b : Bracket) (within : Balanced [] inner)
      (rest : Balanced bars text) : Balanced bars (b.opening :: (inner ++ b.closing :: text))
  | quoted {bars : List Char} {q : Char} {inner text : List Char} (quote : Scan.isQuote q)
      (within : Enclosed q inner) (rest : Balanced bars text) :
      Balanced bars (q :: (inner ++ q :: text))

variable {q : Char} {bars inner : List Char} {depth : Nat}

theorem enclosed_of_all (plain : inner.all fun c => c ≠ q ∧ c ≠ '\\') : Enclosed q inner := by
  induction inner with
  | nil => exact .nil
  | cons c inner ih =>
      rw [List.all_cons, Bool.and_eq_true, decide_eq_true_eq] at plain
      exact .inner plain.1.1 plain.1.2 (ih plain.2)

theorem balanced_of_all (plain : text.all fun c => isPlain c ∧ c ∉ bars) : Balanced bars text := by
  induction text with
  | nil => exact .nil
  | cons c text ih =>
      rw [List.all_cons, Bool.and_eq_true, decide_eq_true_eq] at plain
      exact .plain plain.1.1 plain.1.2 (ih plain.2)

namespace Balanced

theorem append (first : Balanced bars text) (second : Balanced bars rest) :
    Balanced bars (text ++ rest) := by
  induction first with
  | nil => exact second
  | plain plain free _ ih => exact .plain plain free (ih second)
  | bracketed b within _ _ ih =>
      rw [List.cons_append, List.append_assoc, List.cons_append]
      exact .bracketed b within (ih second)
  | quoted quote within _ ih =>
      rw [List.cons_append, List.append_assoc, List.cons_append]
      exact .quoted quote within (ih second)

theorem unbarred (balanced : Balanced bars text) : Balanced [] text := by
  induction balanced with
  | nil => exact .nil
  | plain plain _ _ ih => exact .plain plain List.not_mem_nil ih
  | bracketed b within _ _ ih => exact .bracketed b within ih
  | quoted quote within _ ih => exact .quoted quote within ih

end Balanced

namespace Scan

def outside (depth : Nat) : Scan := ⟨depth, none, false⟩

def inside (depth : Nat) (quote : Char) : Scan := ⟨depth, some quote, false⟩

theorem atTop_outside : (outside depth).atTop ↔ depth = 0 := by
  simp only [atTop, outside, Option.isNone_none, Bool.and_true]
  exact decide_eq_true_iff

theorem step_plain (plain : isPlain c) : (outside depth).step c = outside depth := by
  simp only [isPlain, Bool.not_or, Bool.and_eq_true, Bool.not_eq_true'] at plain
  simp [step, outside, plain]

theorem step_opening (b : Bracket) : (outside depth).step b.opening = outside (depth + 1) := by
  cases b <;> rfl

theorem step_closing (b : Bracket) : (outside (depth + 1)).step b.closing = outside depth := by
  cases b <;> rfl

theorem step_quote (quote : isQuote q) : (outside depth).step q = inside depth q := by
  simp [step, outside, inside, quote]

theorem ne_backslash_of_isQuote (quote : isQuote q) : q ≠ '\\' := by
  rintro rfl
  exact absurd quote (by decide)

theorem step_inside (other : c ≠ q) (unescaped : c ≠ '\\') :
    (inside depth q).step c = inside depth q := by
  simp [step, inside, other, unescaped]

theorem step_end (quote : isQuote q) : (inside depth q).step q = outside depth := by
  simp [step, outside, inside, ne_backslash_of_isQuote quote]

end Scan

open Scan

theorem Enclosed.after (enclosed : Enclosed q inner) (depth : Nat) :
    (Scan.inside depth q).after inner = .inside depth q := by
  induction enclosed with
  | nil => rfl
  | inner other unescaped _ ih => rw [after_cons, step_inside other unescaped, ih]
  | escape _ ih => exact ih

theorem Enclosed.free (enclosed : Enclosed q inner) (depth : Nat) :
    Free stop (.inside depth q) inner := by
  have away {escaped : Bool} : ¬(Scan.mk depth (some q) escaped).atTop := by simp [atTop]
  induction enclosed with
  | nil => trivial
  | inner other unescaped _ ih =>
      refine ⟨fun here => away here.1, ?_⟩
      rwa [step_inside other unescaped]
  | escape _ ih => exact ⟨fun here => away here.1, fun here => away here.1, ih⟩

def Halts (bars : List Char) (stop : Char) : Prop := isClosing stop ∨ isPlain stop ∧ stop ∈ bars

theorem Halts.special (halts : Halts bars stop) : isOpening stop = false ∧ isQuote stop = false := by
  rcases halts with closing | ⟨plain, -⟩
  · simp only [isClosing, Bool.or_eq_true, decide_eq_true_eq] at closing
    rcases closing with (rfl | rfl) | rfl <;> decide
  · simp only [isPlain, Bool.not_or, Bool.and_eq_true, Bool.not_eq_true'] at plain
    exact ⟨plain.1.1, plain.2⟩

theorem Bracket.isOpening_opening (b : Bracket) : isOpening b.opening := by cases b <;> rfl

theorem Bracket.isClosing_closing (b : Bracket) : isClosing b.closing := by cases b <;> rfl

theorem Balanced.after (balanced : Balanced bars text) (depth : Nat) :
    (Scan.outside depth).after text = .outside depth := by
  induction balanced generalizing depth with
  | nil => rfl
  | plain plain _ _ ih => rw [after_cons, step_plain plain, ih]
  | bracketed b _ _ within rest =>
      rw [after_cons, step_opening, after_append, within, after_cons, step_closing, rest]
  | quoted quote within _ rest =>
      rw [after_cons, step_quote quote, after_append, within.after, after_cons, step_end quote,
        rest]

theorem Balanced.free (balanced : Balanced bars text) (depth : Nat)
    (halts : 0 < depth ∨ Halts bars stop) :
    Free stop (.outside depth) text := by
  induction balanced generalizing depth with
  | nil => trivial
  | @plain bars c text plain free _ ih =>
      refine ⟨?_, by rw [step_plain plain]; exact ih _ halts⟩
      rintro ⟨top, rfl⟩
      rw [atTop_outside] at top
      rcases halts with deep | closing | ⟨-, bar⟩
      · omega
      · simp [isPlain, closing] at plain
      · exact free bar
  | bracketed b within _ ihWithin ihRest =>
      refine ⟨?_, ?_⟩
      · rintro ⟨top, rfl⟩
        rw [atTop_outside] at top
        rcases halts with deep | halts
        · omega
        · have opens := b.isOpening_opening
          simp [halts.special.1] at opens
      · rw [step_opening, free_append_iff, within.after]
        refine ⟨ihWithin _ (.inl (Nat.succ_pos _)), ?_, by rw [step_closing]; exact ihRest _ halts⟩
        rw [atTop_outside]
        omega
  | quoted quote within _ ih =>
      refine ⟨?_, ?_⟩
      · rintro ⟨top, rfl⟩
        rw [atTop_outside] at top
        rcases halts with deep | halts
        · omega
        · simp [halts.special.2] at quote
      · rw [step_quote quote, free_append_iff, within.after]
        refine ⟨within.free depth, ?_, by rw [step_end quote]; exact ih _ halts⟩
        simp [inside, atTop]

theorem Balanced.splitTop_stop (balanced : Balanced bars text) (halts : Halts bars stop) :
    splitTop stop .start (text ++ stop :: rest) = some (text, rest) := by
  have ends : Scan.start.after text = .start := balanced.after 0
  exact splitTop_of_stop (balanced.free 0 (.inr halts)) (by rw [ends]; rfl)

theorem Balanced.splitTop_closing (balanced : Balanced bars text) (b : Bracket) (rest : List Char) :
    splitTop b.closing .start (text ++ b.closing :: rest) = some (text, rest) :=
  balanced.splitTop_stop (.inl b.isClosing_closing)

theorem balanced_intercalate {fields : List (List Char)}
    (balanced : ∀ field ∈ fields, Balanced [','] field) : Balanced [] ([','].intercalate fields) := by
  induction fields with
  | nil => exact .nil
  | cons field fields ih =>
      obtain ⟨here, balanced⟩ := List.forall_mem_cons.mp balanced
      cases fields with
      | nil =>
          rw [List.intercalate_singleton]
          exact here.unbarred
      | cons next fields =>
          rw [List.intercalate_cons_cons, List.append_assoc]
          exact here.unbarred.append (.plain (by decide) List.not_mem_nil (ih balanced))

def fieldsOf (text : List Char) : List (List Char) :=
  if h : (splitTop ',' .start text).isSome then
    let parts := (splitTop ',' .start text).get h
    have : parts.2.length < text.length := by
      have parted : splitTop ',' .start text = some (parts.1, parts.2) := (Option.some_get h).symm
      have := length_splitTop parted
      omega
    parts.1 :: fieldsOf parts.2
  else [text]
termination_by text.length

theorem fieldsOf_of_free (free : Free ',' .start text) : fieldsOf text = [text] := by
  have whole := splitTop_of_free free
  rw [fieldsOf, dif_neg (by simp [whole])]

theorem fieldsOf_of_comma (parted : splitTop ',' .start text = some (front, back)) :
    fieldsOf text = front :: fieldsOf back := by
  rw [fieldsOf, dif_pos (by simp [parted])]
  simp only [parted, Option.get_some]

theorem fieldsOf_intercalate {fields : List (List Char)} (nonempty : fields ≠ [])
    (balanced : ∀ field ∈ fields, Balanced [','] field) :
    fieldsOf ([','].intercalate fields) = fields := by
  have comma : Halts [','] ',' := .inr ⟨by decide, List.mem_singleton_self _⟩
  induction fields with
  | nil => exact absurd rfl nonempty
  | cons field fields ih =>
      obtain ⟨here, balanced⟩ := List.forall_mem_cons.mp balanced
      cases fields with
      | nil =>
          rw [List.intercalate_singleton, fieldsOf_of_free (here.free 0 (.inr comma))]
      | cons next fields =>
          rw [List.intercalate_cons_cons, List.append_assoc, List.singleton_append,
            fieldsOf_of_comma (here.splitTop_stop comma), ih (List.cons_ne_nil _ _) balanced]

end Tripwire.Script
