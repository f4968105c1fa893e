import Mathlib.Data.List.TakeWhile
import Tripwire.Proofs.Script.Balanced
import Tripwire.Proofs.Script.Reports

/-!
# The response among the fields of an object

Of an object literal that is reported, the first field with the key `response` gives the value. It is found
among the fields in as many rounds as there are fields before it.
-/
namespace Tripwire

namespace Text

abbrev Blank (text : List Char) : Prop := ∀ c ∈ text, isBlank c

theorem dropWhile_isBlank {before : List Char} (blank : Blank before) (text : List Char) :
    (before ++ text).dropWhile isBlank = text.dropWhile isBlank :=
  List.dropWhile_append_of_pos blank

theorem trim_eq_nil_iff {text : List Char} : trim text = [] ↔ Blank text := by
  rw [trim, List.reverse_eq_nil_iff, List.dropWhile_eq_nil_iff]
  simp only [List.mem_reverse]
  constructor
  · intro blank
    have none : text.dropWhile isBlank = [] := by
      by_contra some
      have first := List.head_dropWhile_not isBlank some
      rw [blank _ (List.head_mem some)] at first
      cases first
    exact List.dropWhile_eq_nil_iff.mp none
  · intro blank c mem
    exact blank c ((List.dropWhile_sublist isBlank).subset mem)

theorem trim_of_blank {before after text : List Char} {c d : Char} (blank : Blank before)
    (blank' : Blank after) (first : isBlank c = false) (last : isBlank d = false) :
    trim (before ++ c :: (text ++ d :: after)) = c :: (text ++ [d]) := by
  have reversed : Blank after.reverse := fun c mem => blank' c (List.mem_reverse.mp mem)
  have same : (c :: (text ++ d :: after)).reverse = after.reverse ++ (d :: (text.reverse ++ [c])) := by
    simp
  rw [trim, dropWhile_isBlank blank, List.dropWhile_cons_of_neg (by simp [first]), same,
    dropWhile_isBlank reversed, List.dropWhile_cons_of_neg (by simp [last])]
  simp

end Text

namespace Script
open Text

variable {field value text argument fields inner rest : List Char}

def Keyed (field value : List Char) : Prop :=
  ∃ before key between, Blank before ∧ key ∈ responseKeys ∧ Blank between ∧
    field = before ++ (key ++ (between ++ ':' :: value))

theorem afterResponseKey?_eq_some_iff : afterResponseKey? field = some value ↔ Keyed field value := by
  constructor
  · intro found
    obtain ⟨key, mem, behind⟩ := List.exists_of_findSome?_eq_some found
    split at behind
    · rename_i colon
      obtain rfl := Option.some.inj behind
      obtain ⟨tail, stripped, same⟩ := Option.map_eq_some_iff.mp colon
      refine ⟨field.takeWhile isBlank, key, tail.takeWhile isBlank, fun c => List.mem_takeWhile_imp, mem,
        fun c => List.mem_takeWhile_imp, ?_⟩
      rw [← same, List.takeWhile_append_dropWhile, ← stripPrefix?_eq_some_iff.mp stripped,
        List.takeWhile_append_dropWhile]
    · cases behind
  · rintro ⟨before, key, between, blank, mem, blank', rfl⟩
    have colon : (between ++ ':' :: value).dropWhile isBlank = ':' :: value :=
      dropWhile_isBlank blank' _
    have starts : (before ++ (key ++ (between ++ ':' :: value))).dropWhile isBlank =
        key ++ (between ++ ':' :: value) := by
      rw [dropWhile_isBlank blank]
      simp only [responseKeys, List.mem_cons, List.not_mem_nil, or_false] at mem
      rcases mem with rfl | rfl | rfl <;> rfl
    simp only [afterResponseKey?, starts]
    simp only [responseKeys, List.mem_cons, List.not_mem_nil, or_false] at mem
    rcases mem with rfl | rfl | rfl
    all_goals simp [responseKeys, stripPrefix?, colon]

theorem not_keyed_nil (value : List Char) : ¬Keyed [] value := by
  rintro ⟨before, key, between, -, -, -, same⟩
  simp at same

theorem afterResponseKey?_eq_none_iff : afterResponseKey? field = none ↔ ∀ value, ¬Keyed field value := by
  rw [Option.eq_none_iff_forall_ne_some]
  exact forall_congr' fun value => not_congr afterResponseKey?_eq_some_iff

def nonblank? (value : List Char) : Option (List Char) :=
  if (trim value).isEmpty then none else some (trim value)

theorem responseField?_eq (fields : List Char) :
    responseField? fields = ((fieldsOf fields).findSome? afterResponseKey?).bind nonblank? := by
  fun_induction responseField? fields with
  | case1 fields field rest parted _ after keyed value empty =>
      simp [fieldsOf_of_comma parted, keyed, nonblank?, empty, value]
  | case2 fields field rest parted _ after keyed value nonempty =>
      simp [fieldsOf_of_comma parted, keyed, nonblank?, nonempty, value]
  | case3 fields field rest parted _ other ih =>
      rw [fieldsOf_of_comma parted, List.findSome?_cons_of_isNone (by simp [other]), ih]
  | case4 fields whole after keyed value empty =>
      simp [fieldsOf_of_free (splitTop_eq_none_iff.mp whole), keyed, nonblank?, empty, value]
  | case5 fields whole after keyed value nonempty =>
      simp [fieldsOf_of_free (splitTop_eq_none_iff.mp whole), keyed, nonblank?, nonempty, value]
  | case6 fields whole other =>
      simp [fieldsOf_of_free (splitTop_eq_none_iff.mp whole), other]

theorem responseField?_of_first {earlier later : List (List Char)} (parts : fieldsOf fields = earlier ++ field :: later)
    (others : ∀ other ∈ earlier, ∀ value, ¬Keyed other value) (keyed : Keyed field value) :
    responseField? fields = nonblank? value := by
  have skipped : earlier.findSome? afterResponseKey? = none := by
    rw [List.findSome?_eq_none_iff]
    exact fun other mem => afterResponseKey?_eq_none_iff.mpr (others other mem)
  rw [responseField?_eq, parts, List.findSome?_append, skipped, Option.none_or, List.findSome?_cons,
    afterResponseKey?_eq_some_iff.mpr keyed]
  rfl

theorem responseField?_of_none (others : ∀ other ∈ fieldsOf fields, ∀ value, ¬Keyed other value) :
    responseField? fields = none := by
  have skipped : (fieldsOf fields).findSome? afterResponseKey? = none := by
    rw [List.findSome?_eq_none_iff]
    exact fun other mem => afterResponseKey?_eq_none_iff.mpr (others other mem)
  rw [responseField?_eq, skipped, Option.bind_none]

def round (fields : List Char) : Option (List Char) ⊕ List Char :=
  match splitTop ',' .start fields with
  | some (field, rest) =>
      match afterResponseKey? field with
      | some value => .inl (nonblank? value)
      | none => .inr rest
  | none => .inl ((afterResponseKey? fields).bind nonblank?)

inductive Rounds : Nat → List Char → Option (List Char) → Prop
  | last {fields : List Char} {found? : Option (List Char)} (ends : round fields = .inl found?) :
      Rounds 1 fields found?
  | next {n : Nat} {fields rest : List Char} {found? : Option (List Char)}
      (goes : round fields = .inr rest) (later : Rounds n rest found?) : Rounds (n + 1) fields found?

theorem responseField?_of_inl {found? : Option (List Char)} (ends : round fields = .inl found?) :
    responseField? fields = found? := by
  unfold round at ends
  rw [responseField?_eq]
  split at ends
  · rename_i parted
    split at ends
    · rename_i keyed
      obtain rfl := Sum.inl.inj ends
      rw [fieldsOf_of_comma parted, List.findSome?_cons, keyed]
      rfl
    · cases ends
  · rename_i whole
    obtain rfl := Sum.inl.inj ends
    rw [fieldsOf_of_free (splitTop_eq_none_iff.mp whole), List.findSome?_singleton]

theorem responseField?_of_inr (goes : round fields = .inr rest) :
    responseField? fields = responseField? rest ∧ rest.length < fields.length ∧
      rest.count ',' < fields.count ',' := by
  unfold round at goes
  split at goes
  · rename_i parted
    split at goes
    · cases goes
    · rename_i other
      obtain rfl := Sum.inr.inj goes
      rw [responseField?_eq, responseField?_eq, fieldsOf_of_comma parted, List.findSome?_cons, other]
      obtain ⟨rfl, -, -⟩ := splitTop_eq_some_iff.mp parted
      refine ⟨rfl, ?_, ?_⟩
      · simp only [List.length_append, List.length_cons]
        omega
      · simp only [List.count_append, List.count_cons_self]
        omega
  · cases goes

theorem rounds_responseField? (fields : List Char) :
    ∃ n ≤ fields.count ',' + 1, Rounds n fields (responseField? fields) := by
  induction size : fields.length using Nat.strong_induction_on generalizing fields with
  | _ size ih =>
      subst size
      cases round : round fields with
      | inl found? =>
          rw [responseField?_of_inl round]
          exact ⟨1, Nat.le_add_left 1 _, .last round⟩
      | inr rest =>
          -- What is left is shorter, for the induction, and has fewer commas, for the bound.
          obtain ⟨same, shorter, fewer⟩ := responseField?_of_inr round
          obtain ⟨n, bound, rounds⟩ := ih rest.length shorter rest rfl
          rw [same]
          exact ⟨n + 1, by omega, .next round rounds⟩

theorem responseProperty?_of_brace (rest : List Char) (free : Free '}' .start inner)
    (top : (Scan.start.after inner).atTop) :
    responseProperty? ('{' :: (inner ++ '}' :: rest)) =
      if (trim rest).isEmpty then responseField? inner else none := by
  simp only [responseProperty?, splitTop_of_stop free top]

theorem object_of_responseProperty? (found : responseProperty? argument = some value) :
    ∃ inner rest, argument = '{' :: (inner ++ '}' :: rest) ∧ Free '}' .start inner ∧
      (Scan.start.after inner).atTop ∧ Blank rest := by
  unfold responseProperty? at found
  split at found
  · split at found
    · rename_i inner rest parted
      obtain ⟨rfl, free, top⟩ := splitTop_eq_some_iff.mp parted
      split at found
      · rename_i blank
        exact ⟨inner, rest, rfl, free, top, trim_eq_nil_iff.mp (List.isEmpty_iff.mp blank)⟩
      · cases found
    · cases found
  · cases found

theorem responseProperty?_object {before after : List Char} (balanced : Balanced [] inner)
    (blank : Blank before) (blank' : Blank after) :
    responseProperty? (trim (before ++ '{' :: (inner ++ '}' :: after))) = responseField? inner := by
  have trimmed : trim (before ++ '{' :: (inner ++ '}' :: after)) = '{' :: (inner ++ ['}']) :=
    trim_of_blank blank blank' (by decide) (by decide)
  have parted := balanced.splitTop_closing .curly []
  obtain ⟨-, free, top⟩ := splitTop_eq_some_iff.mp parted
  rw [trimmed, responseProperty?_of_brace [] free top]
  rfl

theorem response_of_object (fields : List (List Char)) (before after : List Char)
    (balanced : ∀ field ∈ fields, Balanced [','] field) (blank : Blank before) (blank' : Blank after) :
    let argument := trim (before ++ '{' :: ([','].intercalate fields ++ '}' :: after))
    (∀ earlier field value later, fields = earlier ++ field :: later →
      (∀ other ∈ earlier, ∀ value, ¬Keyed other value) → Keyed field value →
        responseProperty? argument = if trim value = [] then none else some (trim value)) ∧
    ((∀ field ∈ fields, ∀ value, ¬Keyed field value) → responseProperty? argument = none) ∧
    (∀ text, text.head? ≠ some '{' → responseProperty? text = none) ∧
    (∀ inner rest, Balanced [] inner → ¬Blank rest →
      responseProperty? ('{' :: (inner ++ '}' :: rest)) = none) ∧
    (∀ text value, responseProperty? text = some value → ∃ inner rest,
      text = '{' :: (inner ++ '}' :: rest) ∧ Free '}' .start inner ∧ (Scan.start.after inner).atTop ∧
        Blank rest) ∧
    ∀ text, ∃ n ≤ text.count ',' + 1, Rounds n text (responseField? text) := by
  intro argument
  have found : responseProperty? argument = responseField? ([','].intercalate fields) :=
    responseProperty?_object (balanced_intercalate balanced) blank blank'
  refine ⟨?_, ?_, ?_, ?_, ?_, ?_⟩
  · rintro earlier field value later rfl others keyed
    rw [found, responseField?_of_first (fieldsOf_intercalate (by simp) balanced) others keyed, nonblank?]
    simp only [List.isEmpty_iff]
  · intro others
    rw [found]
    apply responseField?_of_none
    cases fields with
    | nil =>
        have none : fieldsOf ([','].intercalate []) = [[]] := fieldsOf_of_free trivial
        rw [none]
        exact List.forall_mem_singleton.mpr not_keyed_nil
    | cons field fields => rwa [fieldsOf_intercalate (List.cons_ne_nil _ _) balanced]
  · intro text other
    cases found : responseProperty? text with
    | none => rfl
    | some value =>
        obtain ⟨inner, rest, rfl, -⟩ := object_of_responseProperty? found
        exact absurd rfl other
  · intro inner rest balanced more
    obtain ⟨-, free, top⟩ := splitTop_eq_some_iff.mp (balanced.splitTop_closing .curly rest)
    rw [responseProperty?_of_brace rest free top, if_neg]
    rwa [List.isEmpty_iff, trim_eq_nil_iff]
  · exact fun text value => object_of_responseProperty?
  · exact rounds_responseField?

def sampleFields : List (List Char) :=
  [" ok: [1, 2]".toList, "\n\"response\" : f(')', \x7b response: 1 \x7d) ".toList, " response: 0".toList]

theorem balanced_sampleFields : ∀ field ∈ sampleFields, Balanced [','] field := by
  have listed : Balanced [','] "[1, 2]".toList :=
    @Balanced.bracketed _ "1, 2".toList _ .square (balanced_of_all (by decide)) .nil
  have literal : Balanced [] "')'".toList :=
    @Balanced.quoted _ '\'' [')'] _ rfl (enclosed_of_all (by decide)) .nil
  have object : Balanced [] "\x7b response: 1 \x7d".toList :=
    @Balanced.bracketed _ " response: 1 ".toList _ .curly (balanced_of_all (by decide)) .nil
  have call : Balanced [','] "(')', \x7b response: 1 \x7d) ".toList :=
    @Balanced.bracketed _ "')', \x7b response: 1 \x7d".toList _ .round
      (literal.append (.plain rfl List.not_mem_nil (.plain rfl List.not_mem_nil object)))
      (balanced_of_all (by decide))
  have key : Balanced [','] "\"response\" : f".toList :=
    @Balanced.quoted _ '"' "response".toList _ rfl (enclosed_of_all (by decide))
      (balanced_of_all (by decide))
  have first : Balanced [','] " ok: ".toList := balanced_of_all (by decide)
  have last : Balanced [','] " response: 0".toList := balanced_of_all (by decide)
  intro field mem
  simp only [sampleFields, List.mem_cons, List.not_mem_nil, or_false] at mem
  rcases mem with rfl | rfl | rfl
  · exact first.append listed
  · exact .plain rfl (by decide) (key.append call)
  · exact last

theorem sampleFields_response :
    (∀ field ∈ sampleFields, Balanced [','] field) ∧
      responseProperty? (trim (" \x7b".toList ++ ([','].intercalate sampleFields ++ "\x7d ".toList))) =
        some "f(')', \x7b response: 1 \x7d)".toList := by
  have blank : Blank [' '] := List.all_eq_true.mp (by decide)
  have others : ∀ other ∈ [" ok: [1, 2]".toList], ∀ value, ¬Keyed other value :=
    List.forall_mem_singleton.mpr (afterResponseKey?_eq_none_iff.mp (by decide))
  have keyed : Keyed "\n\"response\" : f(')', \x7b response: 1 \x7d) ".toList
      " f(')', \x7b response: 1 \x7d) ".toList :=
    afterResponseKey?_eq_some_iff.mp (by decide)
  have selected := (response_of_object sampleFields [' '] [' '] balanced_sampleFields blank blank).1
    [" ok: [1, 2]".toList] _ _ [" response: 0".toList] rfl others keyed
  rw [if_neg (by decide)] at selected
  exact ⟨balanced_sampleFields, selected⟩

end Script
end Tripwire
