import Tripwire.Proofs.Script.Balanced
import Tripwire.Proofs.Script.Representation
import Tripwire.Proofs.Value.Literal

namespace Tripwire.Script
open Value

/-- Characters of values that stand outside of quotes. Neither numbers nor names of constants have capitals. -/
def isBare (c : Char) : Bool := isPlain c && !c.isUpper

inductive Encoded : List Char → Prop
  | nil : Encoded []
  | bare {c : Char} {text : List Char} (bare : isBare c) (rest : Encoded text) : Encoded (c :: text)
  | literal (s : List Char) {text : List Char} (rest : Encoded text) : Encoded (Value.literal s ++ text)
  | bracketed {within text : List Char} (b : Bracket) (data : b ≠ .round) (inner : Encoded within)
      (rest : Encoded text) : Encoded (b.opening :: (within ++ b.closing :: text))

variable {text rest s t : List Char} {xs ys : List Value} {ns ms : List Nat}

theorem encoded_of_forall (bare : ∀ c ∈ text, isBare c) : Encoded text := by
  induction text with
  | nil => exact .nil
  | cons c text ih =>
      obtain ⟨here, bare⟩ := List.forall_mem_cons.mp bare
      exact .bare here (ih bare)

theorem encoded_literal (s : List Char) : Encoded (Value.literal s) := by
  have encoded : Encoded (Value.literal s ++ []) := .literal s .nil
  rwa [List.append_nil] at encoded

theorem Encoded.append (first : Encoded text) (second : Encoded rest) : Encoded (text ++ rest) := by
  induction first with
  | nil => exact second
  | bare bare _ ih => exact .bare bare ih
  | literal s _ ih =>
      rw [List.append_assoc]
      exact .literal s ih
  | bracketed b data inner _ _ ih =>
      rw [List.cons_append, List.append_assoc, List.cons_append]
      exact .bracketed b data inner ih

theorem Encoded.member (k : List Char) (value : Encoded text) (others : Encoded rest) :
    Encoded (Value.literal k ++ ':' :: (text ++ rest)) :=
  .literal k (.bare (by decide) (value.append others))

theorem enclosed_of_escaped (escaped : Escaped text) : Enclosed '"' text := by
  induction escaped with
  | nil => exact .nil
  | inner quotable _ ih => exact .inner quotable.1 quotable.2 ih
  | escape _ ih => exact .escape ih

theorem balanced_literal {bars : List Char} (s : List Char) (rest : Balanced bars text) :
    Balanced bars (Value.literal s ++ text) := by
  rw [Value.literal, List.append_assoc]
  exact .quoted (by decide) (enclosed_of_escaped (escaped_flatMap s)) rest

theorem isPlain_of_isBare {c : Char} (bare : isBare c) : isPlain c := by
  rw [isBare, Bool.and_eq_true] at bare
  exact bare.1

theorem Encoded.balanced (encoded : Encoded text) : Balanced [] text := by
  induction encoded with
  | nil => exact .nil
  | bare bare _ ih => exact .plain (isPlain_of_isBare bare) List.not_mem_nil ih
  | literal s _ ih => exact balanced_literal s ih
  | bracketed b _ _ _ within rest => exact .bracketed b within rest

theorem isUpper_of_isDigit {c : Char} (digit : c.isDigit) : c.isUpper = false := by
  delta Char.isDigit at digit
  rw [Bool.and_eq_true, decide_eq_true_eq, decide_eq_true_eq] at digit
  have last : c.toNat ≤ 57 := UInt32.le_iff_toNat_le.mp digit.2
  rw [Bool.eq_false_iff]
  intro upper
  delta Char.isUpper at upper
  rw [decide_eq_true_eq] at upper
  have first : 65 ≤ c.toNat := UInt32.le_iff_toNat_le.mp upper.1
  omega

theorem isBare_of_isDigit {c : Char} (digit : c.isDigit) : isBare c := by
  have differs {other : Char} (special : other.isDigit = false) : c ≠ other :=
    Text.ne_of_class digit special
  simp [isBare, isUpper_of_isDigit digit, isPlain, Scan.isOpening, Scan.isClosing, Scan.isQuote, differs]

theorem figures_isBare : Figures (isBare ·) :=
  ⟨fun _ => isBare_of_isDigit, by decide, by decide, by decide, by decide⟩

mutual

theorem encoded_text : ∀ v : Value, Encoded v.text
  | .null | .bool true | .bool false => encoded_of_forall (List.all_eq_true.mp (by decide))
  | .int n => encoded_of_forall (figures_isBare.intText n)
  | .float x => by
      rw [Value.text]
      cases written : x.write? with
      | none => exact encoded_of_forall (List.all_eq_true.mp (by decide))
      | some text => exact encoded_of_forall (figures_isBare.write? written)
  | .str s => encoded_literal s.toList
  | .list [] => .bracketed .square (by decide) .nil .nil
  | .map [] => .bracketed .curly (by decide) .nil .nil
  | .list (x :: xs) => by
      obtain ⟨items, encoded, same⟩ := encoded_textItems xs
      rw [Value.text, same, ← List.append_assoc]
      exact .bracketed .square (by decide) ((encoded_text x).append encoded) .nil
  | .map ((k, v) :: fields) => by
      obtain ⟨members, encoded, same⟩ := encoded_textFields fields
      have within := (encoded_text v).member k.toList encoded
      have text : Encoded ('\x7b' :: (Value.literal k.toList ++ ':' :: (v.text ++ members) ++ ['\x7d'])) :=
        .bracketed .curly (by decide) within .nil
      simpa [Value.text, same] using text

theorem encoded_textItems : ∀ xs : List Value,
    ∃ items, Encoded items ∧ textItems xs = items ++ [']']
  | [] => ⟨[], .nil, rfl⟩
  | x :: xs => by
      obtain ⟨items, encoded, same⟩ := encoded_textItems xs
      refine ⟨',' :: (x.text ++ items), .bare (by decide) ((encoded_text x).append encoded), ?_⟩
      rw [textItems, same, List.cons_append, List.append_assoc]

theorem encoded_textFields : ∀ fields : List (String × Value),
    ∃ members, Encoded members ∧ textFields fields = members ++ ['\x7d']
  | [] => ⟨[], .nil, rfl⟩
  | (k, v) :: fields => by
      obtain ⟨members, encoded, same⟩ := encoded_textFields fields
      have member := (encoded_text v).member k.toList encoded
      have comma : isBare ',' := by decide
      exact ⟨_, .bare comma member, by simp [textFields, same]⟩

end

theorem list_text_eq (xs : List Value) :
    ∃ items, Encoded items ∧ (Value.list xs).text = '[' :: (items ++ [']']) := by
  cases xs with
  | nil => exact ⟨[], .nil, rfl⟩
  | cons x xs =>
      obtain ⟨items, encoded, same⟩ := encoded_textItems xs
      exact ⟨x.text ++ items, (encoded_text x).append encoded, by rw [Value.text, same, List.append_assoc]⟩

theorem list_text_append_inj (same : (Value.list xs).text ++ s = (Value.list ys).text ++ t) :
    (Value.list xs).text = (Value.list ys).text ∧ s = t := by
  obtain ⟨items, encoded, text⟩ := list_text_eq xs
  obtain ⟨items', encoded', text'⟩ := list_text_eq ys
  rw [text, text'] at same ⊢
  simp only [List.cons_append, List.append_assoc, List.nil_append, List.cons.injEq, true_and] at same
  -- Both lists end where a scan finds the first closing bracket.
  have left := encoded.balanced.splitTop_closing .square s
  have right := encoded'.balanced.splitTop_closing .square t
  have parts := left.symm.trans ((congrArg (splitTop ']' .start) same).trans right)
  obtain ⟨rfl, rfl⟩ := Prod.mk.inj (Option.some.inj parts)
  exact ⟨rfl, rfl⟩

theorem isDigit_numeral (n : Nat) : ∀ c ∈ Text.Numeral.write n, c.isDigit := fun _ mem =>
  Nat.isDigit_of_mem_toDigits (by decide) (by decide) mem

theorem ends_textItems (xs : List Value) : ∀ c ∈ (textItems xs).head?, c.isDigit = false := by
  cases xs <;> simp [textItems]

theorem numeral_append_inj {m n : Nat}
    (same : Text.Numeral.write m ++ textItems xs = Text.Numeral.write n ++ textItems ys) :
    m = n ∧ textItems xs = textItems ys := by
  obtain ⟨written, rest⟩ := Text.append_inj_of_class (isDigit_numeral m) (isDigit_numeral n)
    (ends_textItems xs) (ends_textItems ys) same
  exact ⟨Text.Numeral.write_inj.mp written, rest⟩

theorem textItems_ofNat_inj (same : textItems (ns.map .ofNat) = textItems (ms.map .ofNat)) : ns = ms := by
  induction ns generalizing ms with
  | nil =>
      cases ms with
      | nil => rfl
      | cons m ms => exact absurd (List.cons.inj same).1 (by decide)
  | cons n ns ih =>
      cases ms with
      | nil => exact absurd (List.cons.inj same).1 (by decide)
      | cons m ms =>
          obtain ⟨rfl, later⟩ := numeral_append_inj (m := n) (n := m) (List.cons.inj same).2
          rw [ih later]

theorem numbers_text_ne (n : Nat) : (Value.list []).text ≠ (Value.list ((n :: ns).map .ofNat)).text := by
  intro same
  have opened : [] ++ textItems [] = Text.Numeral.write n ++ textItems (ns.map .ofNat) :=
    (List.cons.inj same).2
  obtain ⟨none, -⟩ := Text.append_inj_of_class (List.forall_mem_nil _) (isDigit_numeral n)
    (ends_textItems []) (ends_textItems _) opened
  exact Nat.toDigits_ne_nil none.symm

theorem numbers_text_inj :
    (Value.list (ns.map .ofNat)).text = (Value.list (ms.map .ofNat)).text ↔ ns = ms := by
  constructor
  · intro same
    match ns, ms with
    | [], [] => rfl
    | [], m :: ms => exact absurd same (numbers_text_ne m)
    | n :: ns, [] => exact absurd same.symm (numbers_text_ne n)
    | n :: ns, m :: ms => exact textItems_ofNat_inj (congrArg (',' :: List.tail ·) same)
  · rintro rfl
    rfl

end Tripwire.Script
