import Tripwire.Proofs.Script.Places
import Tripwire.Proofs.Script.Sender

namespace Tripwire

theorem Text.isUnprinted_of_ascii {c : Char} (low : 0x20 ≤ c.toNat) (high : c.toNat < 0x7f) :
    isUnprinted c = false := by
  have apart : ∀ range ∈ unprintedRanges, range.2 < 0x20 ∨ 0x7f ≤ range.1 := by decide +kernel
  rw [isUnprinted, List.any_eq_false]
  intro range mem within
  rw [Bool.and_eq_true, decide_eq_true_eq, decide_eq_true_eq] at within
  rcases apart range mem with below | above
  · omega
  · omega

theorem Text.bounds_of_isAlphanum {c : Char} (letter : c.isAlphanum) :
    0x20 ≤ c.toNat ∧ c.toNat < 0x7f := by
  delta Char.isAlphanum Char.isAlpha Char.isUpper Char.isLower Char.isDigit at letter
  simp only [Bool.or_eq_true, Bool.and_eq_true, decide_eq_true_eq, ge_iff_le,
    UInt32.le_iff_toNat_le] at letter
  change ((65 ≤ c.toNat ∧ c.toNat ≤ 90) ∨ (97 ≤ c.toNat ∧ c.toNat ≤ 122)) ∨
    (48 ≤ c.toNat ∧ c.toNat ≤ 57) at letter
  omega

theorem Text.showChar_of_isAlphanum {c : Char} (letter : c.isAlphanum) : showChar '"' c = [c] := by
  obtain ⟨low, high⟩ := bounds_of_isAlphanum letter
  have differs {other : Char} (special : other.isAlphanum = false) : c ≠ other := by
    rintro rfl
    exact absurd letter (by simp [special])
  rw [showChar, if_neg (differs (by decide)), if_neg (differs (by decide)),
    if_neg (differs (by decide)), if_neg (differs (by decide)),
    if_neg (not_or.mpr ⟨differs (by decide), differs (by decide)⟩),
    isUnprinted_of_ascii low high, if_neg Bool.false_ne_true]

theorem Text.quoted_of_isAlphanum {text : List Char} (letters : ∀ c ∈ text, c.isAlphanum) :
    quoted text = '"' :: (text ++ ['"']) := by
  have same : text.flatMap (showChar '"') = text := by
    induction text with
    | nil => rfl
    | cons c text ih =>
        obtain ⟨here, letters⟩ := List.forall_mem_cons.mp letters
        rw [List.flatMap_cons, ih letters, showChar_of_isAlphanum here, List.singleton_append]
  rw [quoted, same, List.cons_append]

theorem Action.Kind.isAlphanum_unitName (kind : Kind) (priority : Nat) :
    ∀ c ∈ (kind.unitName priority).toList, c.isAlphanum := by
  rw [unitName, String.toList_ofList]
  refine List.forall_mem_append.mpr ⟨?_, ?_⟩
  · apply List.all_eq_true.mp
    cases kind <;> decide +kernel
  · intro c mem
    have digit := Nat.isDigit_of_mem_toDigits (by decide) (by decide) mem
    simp [Char.isAlphanum, digit]

namespace Script
open Place Value

structure Named (name : List Char) : Prop where
  letters : ∀ c ∈ name, c.isAlphanum
  numbered : ∃ c ∈ name, c.isDigit

theorem named_unitName (kind : Action.Kind) (priority : Nat) : Named (kind.unitName priority).toList := by
  refine ⟨kind.isAlphanum_unitName priority, ?_⟩
  obtain ⟨c, mem⟩ := List.exists_mem_of_ne_nil (Text.Numeral.write priority) Nat.toDigits_ne_nil
  rw [Action.Kind.unitName, String.toList_ofList]
  exact ⟨c, List.mem_append_right _ mem, isDigit_numeral priority c mem⟩

variable {name word rest : List Char}

namespace Named

theorem isWord (named : Named name) : ∀ c ∈ name, Place.isWord c := fun c mem => by
  simp [Place.isWord, named.letters c mem]

theorem reads (named : Named name) : Reads (code word) name [] (code (word ++ name)) :=
  reads_word named.isWord

theorem ne (named : Named name) {other : Char} (special : other.isAlphanum = false) : ∀ c ∈ name, c ≠ other := by
  rintro c mem rfl
  exact absurd (named.letters c mem) (by simp [special])

theorem ne_word (named : Named name) (unnumbered : ¬word.any Char.isDigit) : name ≠ word := by
  rintro rfl
  exact unnumbered (List.any_eq_true.mpr named.numbered)

theorem count_eq_zero (named : Named name) {words : List (List Char)}
    (unnumbered : ∀ word ∈ words, ¬word.any Char.isDigit) : words.count name = 0 :=
  List.count_eq_zero.mpr fun mem => named.ne_word (unnumbered name mem) rfl

theorem escaped (named : Named name) : Escaped name :=
  escaped_of_quotable fun c mem => ⟨named.ne (by decide) c mem, named.ne (by decide) c mem⟩

theorem reads_quoted (named : Named name) : Reads (code word) (Text.quoted name) [] (code []) := by
  rw [Text.quoted_of_isAlphanum named.letters]
  exact Script.reads_quoted named.escaped

theorem reads_front (named : Named name) :
    Reads (code []) ("const ".toList ++ name ++ " = async () => \x7b\n".toList) [] (code []) := by
  rw [List.append_assoc]
  refine .pass (code []) (.literal (by decide)) (named.reads.pass _ ?_)
  exact .literal (.separated (by decide) (by decide) (by decide))

theorem reads_result (named : Named name) (value : Reads (code []) rest [] (code [])) :
    Reads (code []) (resultsName.toList ++ ('[' :: Text.quoted name ++ rest)) [] (code []) := by
  have results : Reads (code []) (resultsName.toList ++ ['[']) [] (code []) := by decide
  have quoted : Reads (code []) (Text.quoted name) [] (code []) := named.reads_quoted
  have reads := results.pass _ (quoted.pass _ value)
  rwa [List.append_assoc] at reads

theorem reads_call (named : Named name) : Reads (code []) (name ++ ['(', ')']) [] (code []) := by
  have unnumbered : ∀ m ∈ watched, ¬m.word.any Char.isDigit := by decide
  refine named.reads.pass _ (.cons ?_ (.unopened rfl .nil))
  rintro _ ⟨⟩ known
  exact named.ne_word (unnumbered _ known) rfl

theorem calls_eq (named : Named name) : calls (name ++ ['(', ')']) = [name] := by
  obtain ⟨after, none⟩ := word_eq [] named.isWord
  rw [calls, openings_append, none, after]
  rfl

end Named

theorem reads_calls {names : List (List Char)} (named : ∀ name ∈ names, Named name) :
    Reads (code []) ([',', ' '].intercalate (names.map (· ++ ['(', ')']))) [] (code []) := by
  induction names with
  | nil => exact .nil
  | cons name names ih =>
      obtain ⟨here, named⟩ := List.forall_mem_cons.mp named
      cases names with
      | nil => simpa using here.reads_call
      | cons other names =>
          have comma : Reads (code []) [',', ' '] [] (code []) := by decide
          have reads := here.reads_call.pass _ (comma.pass _ (ih named))
          simpa [List.intercalate_cons_cons] using reads

theorem calls_intercalate {names : List (List Char)} (named : ∀ name ∈ names, Named name) :
    calls ([',', ' '].intercalate (names.map (· ++ ['(', ')']))) = names := by
  induction names with
  | nil => rfl
  | cons name names ih =>
      obtain ⟨here, named⟩ := List.forall_mem_cons.mp named
      cases names with
      | nil => simpa using here.calls_eq
      | cons other names =>
          have comma (rest : List Char) : calls ([',', ' '] ++ rest) = calls rest := calls_append rfl rest
          have later := ih named
          rw [List.map_cons] at later
          rw [List.map_cons, List.map_cons, List.intercalate_cons_cons, List.append_assoc,
            calls_append here.reads_call.after, here.calls_eq, comma, later, List.singleton_append]

def driverFront : List Char :=
  "const ".toList ++ driverName.toList ++ " = async () => \x7b\n  await Promise.all([".toList

def driverBack : List Char :=
  "]);\n  ".toList ++ reportCall.toList ++ "(\x7b response: JSON.stringify(".toList ++ resultsName.toList ++
    ") \x7d);\n\x7d;\n".toList ++ driverName.toList ++ "();\n".toList

theorem driverText_eq (names : List String) : driverText names =
    driverFront ++ ([',', ' '].intercalate ((names.map String.toList).map (· ++ ['(', ')'])) ++ driverBack) := by
  have written : (String.intercalate ", " (names.map (· ++ "()"))).toList =
      [',', ' '].intercalate ((names.map String.toList).map (· ++ ['(', ')'])) := by
    simp [String.toList_intercalate, Function.comp_def]
  unfold driverText driverFront driverBack
  simp only [← written, List.append_assoc]

theorem reads_driverFront : Reads (code []) driverFront [] (code []) := by decide +kernel

theorem reads_driver {names : List String} (named : ∀ name ∈ names, Named name.toList) :
    Reads (code []) (driverText names) [] (code []) := by
  have back : Reads (code []) driverBack [] (code []) := by decide +kernel
  rw [driverText_eq]
  exact reads_driverFront.pass _ ((reads_calls (List.forall_mem_map.mpr named)).pass _ back)

theorem calls_driver {names : List String} (named : ∀ name ∈ names, Named name.toList) :
    calls (driverText names) = [] :: "all".toList :: names.map String.toList ++
      ["setResponse".toList, "stringify".toList, driverName.toList] := by
  have named := List.forall_mem_map.mpr named
  have front : calls driverFront = [[], "all".toList] := by decide +kernel
  have back : calls driverBack = ["setResponse".toList, "stringify".toList, driverName.toList] := by
    decide +kernel
  rw [driverText_eq, calls_append reads_driverFront.after, calls_append (reads_calls named).after, front,
    calls_intercalate named, back]
  rfl

theorem reads_lines {ls : List String}
    (each : ∀ l ∈ ls, Reads (code []) (l.toList ++ ['\n']) [] (code [])) :
    Reads (code []) (lines ls) [] (code []) := by
  induction ls with
  | nil => exact .nil
  | cons l ls ih =>
      obtain ⟨line, each⟩ := List.forall_mem_cons.mp each
      exact line.pass _ (ih each)

theorem reads_armLine (c : Action.Comparison) :
    Reads (code []) ((armLine c).toList ++ ['\n']) [] (code []) := by
  have label : Reads (code []) "    case ".toList [] (code []) := by decide +kernel
  have result : Reads (code []) (": return ".toList ++ (armOf c).text.toList ++ ";\n".toList) []
      (code []) := by
    cases c <;> decide +kernel
  have reads := label.pass _ ((reads_literal c.symbol.toList).pass _ result)
  simpa [armLine] using reads

theorem reads_line {text : List Char} (reads : Reads (code []) (text ++ ['\n']) [] (code [])) :
    Reads (code []) ((String.ofList text).toList ++ ['\n']) [] (code []) := by
  rwa [String.toList_ofList]

theorem reads_prelude : Reads (code []) prelude [] (code []) := by
  apply reads_lines
  refine List.forall_mem_append.mpr ⟨List.forall_mem_append.mpr ⟨?_, ?_⟩, ?_⟩
  · refine List.forall_mem_cons.mpr ⟨by decide +kernel, ?_⟩
    iterate 20 refine List.forall_mem_cons.mpr ⟨reads_line (by decide +kernel), ?_⟩
    exact List.forall_mem_nil _
  · exact List.forall_mem_map.mpr fun c _ => reads_armLine c
  · iterate 5 refine List.forall_mem_cons.mpr ⟨reads_line (by decide +kernel), ?_⟩
    refine List.forall_mem_cons.mpr ⟨by decide +kernel, ?_⟩
    iterate 2 refine List.forall_mem_cons.mpr ⟨reads_line (by decide +kernel), ?_⟩
    exact List.forall_mem_nil _

theorem encoded_memberText (k : String) (v : Value) : Encoded (memberText k v) := by
  have member := (encoded_text v).member k.toList .nil
  rwa [List.append_nil] at member

theorem encoded_members (fields : List (String × Value)) :
    Encoded (fields.flatMap fun field => memberText field.1 field.2 ++ [',']) := by
  induction fields with
  | nil => exact .nil
  | cons field fields ih =>
      rw [List.flatMap_cons]
      exact ((encoded_memberText field.1 field.2).append (.bare (by decide) .nil)).append ih

theorem reads_textFields (fields : List (String × Value)) :
    Reads (code word) (textFields fields) [] (code []) := by
  have reads : Reads (code []) (textFields fields) [] (code []) := by
    obtain ⟨members, encoded, same⟩ := encoded_textFields fields
    obtain ⟨inner, -, inside⟩ := encoded.reads (List.forall_mem_nil _)
    rw [same]
    exact inside.pass _ (.closing .curly .nil)
  obtain ⟨d, rest, ending, same⟩ := textFields_starts fields
  rw [same] at reads ⊢
  rcases ending with rfl | rfl
  · exact .separated rfl rfl reads
  · exact .separated rfl rfl reads

theorem reads_transaction {t : Contract.Transaction}
    (sender : t.sender = Contract.Transaction.senderPlaceholder) :
    Reads (code []) (transactionText t) [] (code []) := by
  obtain ⟨word, -, before⟩ := (encoded_members t.fieldsBefore).reads (List.forall_mem_nil _)
  have reference : Reads (code []) senderReference [] (code "signerAddress".toList) := by decide
  have reference : Reads (code word) senderReference [] (code "signerAddress".toList) := .separated rfl rfl reference
  rw [(transactionText_eq sender).2]
  exact .opening (b := .curly) (by decide) (List.forall_mem_nil _)
    (before.pass _ (reference.pass _ (reads_textFields t.fieldsAfter)))

theorem Named.reads_contract (named : Named name) {t : Contract.Transaction}
    (sender : t.sender = Contract.Transaction.senderPlaceholder) :
    Reads (code []) (bodyText name (.contract t)) [] (code []) := by
  unfold bodyText
  simp only [List.append_assoc]
  refine .pass (code []) (.literal (by decide)) ?_
  refine .pass (code []) (reads_transaction sender) ?_
  refine .pass (code []) (.literal (by decide)) ?_
  refine .pass (code "signEcdsa".toList) (.literal (by decide)) ?_
  refine .pass (code []) (.literal (by decide)) ?_
  refine .pass (code []) named.reads_quoted ?_
  refine .pass (code []) (.literal (by decide)) (named.reads_result ?_)
  exact .literal (by decide)

end Script
end Tripwire
