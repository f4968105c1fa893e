import Tripwire.Value.Text

namespace Tripwire.Value

abbrev Quotable (c : Char) : Prop := c ≠ '"' ∧ c ≠ '\\'

inductive Escaped : List Char → Prop
  | nil : Escaped []
  | inner {c : Char} {text : List Char} : Quotable c → Escaped text → Escaped (c :: text)
  | escape {e : Char} {text : List Char} : Escaped text → Escaped ('\\' :: e :: text)

variable {c : Char} {text : List Char}

theorem escaped_of_quotable (inner : ∀ c ∈ text, Quotable c) : Escaped text := by
  induction text with
  | nil => exact .nil
  | cons c text ih =>
      obtain ⟨here, inner⟩ := List.forall_mem_cons.mp inner
      exact .inner here (ih inner)

theorem quotable_hexDigit : ∀ n < 16, Quotable (Text.Hex.digit n) := by decide

theorem Escaped.append_escapeChar (escaped : Escaped text) (c : Char) :
    Escaped (escapeChar c ++ text) := by
  by_cases quote : c = '"'
  · subst quote
    exact .escape escaped
  by_cases backslash : c = '\\'
  · subst backslash
    exact .escape escaped
  rw [escapeChar, if_neg quote, if_neg backslash]
  iterate 5
    split
    · exact .escape escaped
  split
  case isTrue control =>
    have high := quotable_hexDigit (c.toNat / 16) (by omega)
    have low := quotable_hexDigit (c.toNat % 16) (by omega)
    exact .escape (.inner (by decide) (.inner (by decide) (.inner high (.inner low escaped))))
  case isFalse => exact .inner ⟨quote, backslash⟩ escaped

theorem escaped_flatMap (s : List Char) : Escaped (s.flatMap escapeChar) := by
  induction s with
  | nil => exact .nil
  | cons c s ih => exact ih.append_escapeChar c

structure Figures (P : Char → Prop) : Prop where
  digit : ∀ c, c.isDigit → P c
  minus : P '-'
  plus : P '+'
  point : P '.'
  exponent : P 'e'

namespace Figures
variable {P : Char → Prop}

theorem numeral (figures : Figures P) (n : Nat) : ∀ c ∈ Text.Numeral.write n, P c := fun _ mem =>
  figures.digit _ (Nat.isDigit_of_mem_toDigits (by decide) (by decide) mem)

theorem intText (figures : Figures P) (n : Int) : ∀ c ∈ intText n, P c := by
  unfold Value.intText
  split
  · exact List.forall_mem_cons.mpr ⟨figures.minus, figures.numeral _⟩
  · exact figures.numeral _

theorem signText (figures : Figures P) (n : Int) : ∀ c ∈ 'e' :: Double.signText n, P c := by
  have sign : P (if n < 0 then '-' else '+') := by
    split
    · exact figures.minus
    · exact figures.plus
  exact List.forall_mem_cons.mpr ⟨figures.exponent, List.forall_mem_cons.mpr ⟨sign, figures.numeral _⟩⟩

theorem zero (figures : Figures P) : P '0' := figures.digit '0' (by decide)

theorem zeros (figures : Figures P) (n : Nat) : ∀ c ∈ List.replicate n '0', P c := by
  intro c mem
  rw [List.eq_of_mem_replicate mem]
  exact figures.zero

theorem place (figures : Figures P) {digits : List Char} (each : ∀ c ∈ digits, P c) (weight : Int) :
    ∀ c ∈ Double.place digits weight, P c := by
  unfold Double.place
  split
  · split
    · have fraction := List.forall_mem_append.mpr ⟨figures.zeros (-weight - 1).toNat, each⟩
      exact List.forall_mem_cons.mpr ⟨figures.zero, List.forall_mem_cons.mpr ⟨figures.point, fraction⟩⟩
    · have padded := List.forall_mem_append.mpr
        ⟨each, figures.zeros (weight.toNat + 1 - digits.length)⟩
      refine List.forall_mem_append.mpr ⟨fun c mem => padded c (List.mem_of_mem_take mem), ?_⟩
      refine List.forall_mem_cons.mpr ⟨figures.point, ?_⟩
      split
      · exact List.forall_mem_singleton.mpr figures.zero
      · exact fun c mem => padded c (List.mem_of_mem_drop mem)
  · split
    · exact List.forall_mem_nil _
    · obtain ⟨first, -⟩ := List.forall_mem_cons.mp each
      exact List.forall_mem_cons.mpr ⟨first, figures.signText weight⟩
    · obtain ⟨first, others⟩ := List.forall_mem_cons.mp each
      have fraction := List.forall_mem_append.mpr ⟨others, figures.signText weight⟩
      exact List.forall_mem_cons.mpr ⟨first, List.forall_mem_cons.mpr ⟨figures.point, fraction⟩⟩

theorem stripZeros (figures : Figures P) (n : Nat) :
    ∀ c ∈ (Double.stripZeros (Text.Numeral.write n)).1, P c := by
  intro c mem
  have digits := (List.dropWhile_sublist _).subset (List.mem_reverse.mp mem)
  exact figures.numeral n c (List.mem_reverse.mp digits)

theorem write? (figures : Figures P) {x : Double} (written : x.write? = some text) : ∀ c ∈ text, P c := by
  cases x with
  | finite negative m e =>
      obtain rfl := Option.some.inj written
      have body {weight : Int} : ∀ c ∈ (if m = 0 then ['0', '.', '0'] else
          Double.place (Double.stripZeros (Text.Numeral.write (Double.shortest m e).1)).1 weight), P c := by
        split
        · simp [figures.zero, figures.point]
        · exact figures.place (figures.stripZeros _) weight
      cases negative with
      | true => exact List.forall_mem_cons.mpr ⟨figures.minus, body⟩
      | false => exact body
  | infinite | nan => cases written

end Figures

def memberText (k : String) (v : Value) : List Char := literal k.toList ++ ':' :: v.text

def membersText (fields : List (String × Value)) : List Char :=
  fields.flatMap fun field => ',' :: memberText field.1 field.2

theorem textFields_append (fields others : List (String × Value)) :
    textFields (fields ++ others) = membersText fields ++ textFields others := by
  induction fields with
  | nil => rfl
  | cons field fields ih =>
      rw [List.cons_append, textFields, ih]
      simp [membersText, memberText]

end Tripwire.Value
