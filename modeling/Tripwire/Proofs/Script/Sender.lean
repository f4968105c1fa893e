import Tripwire.Proofs.Value.Text
import Tripwire.Script.Render

namespace Tripwire.Script
open Value

variable {pattern replacement text rest word more before after front back : List Char} {c d : Char}

/-- No occurrence of a pattern begins within a text that a rest follows. -/
inductive Avoids (pattern rest : List Char) : List Char → Prop
  | nil : Avoids pattern rest []
  | cons {c : Char} {text : List Char} : ¬pattern <+: c :: (text ++ rest) →
      Avoids pattern rest text → Avoids pattern rest (c :: text)

theorem Avoids.append (here : Avoids pattern (more ++ rest) text) (there : Avoids pattern rest more) :
    Avoids pattern rest (text ++ more) := by
  induction here with
  | nil => exact there
  | @cons c text starts _ ih =>
      rw [← List.append_assoc] at starts
      exact .cons starts ih

theorem Avoids.length_le (avoids : Avoids pattern rest text)
    (occurs : text ++ rest = before ++ (pattern ++ after)) : text.length ≤ before.length := by
  induction avoids generalizing before with
  | nil => exact Nat.zero_le _
  | cons starts _ ih =>
      cases before with
      | nil => exact absurd ⟨after, occurs.symm⟩ starts
      | cons _ before => exact Nat.succ_le_succ (ih (List.cons.inj occurs).2)

theorem occurs_iff (first : Avoids (c :: pattern) (c :: pattern ++ back) front)
    (last : Avoids (c :: pattern) [] (pattern ++ back)) :
    front ++ (c :: pattern ++ back) = before ++ (c :: pattern ++ after) ↔
      before = front ∧ after = back := by
  constructor
  · intro occurs
    have whole : before <+: front ++ (c :: pattern ++ back) := ⟨_, occurs.symm⟩
    obtain ⟨more, rfl⟩ :=
      List.prefix_of_prefix_length_le (List.prefix_append _ _) whole (first.length_le occurs)
    rw [List.append_assoc, List.append_cancel_left_eq] at occurs
    cases more with
    | nil => exact ⟨List.append_nil front, (List.append_cancel_left occurs).symm⟩
    | cons e more =>
        -- A further occurrence would begin behind the first character of this one.
        have behind : pattern ++ back = more ++ (c :: pattern ++ after) := (List.cons.inj occurs).2
        have far : (pattern ++ back).length ≤ more.length := last.length_le (by simpa using behind)
        rw [behind, List.length_append, List.cons_append, List.length_cons] at far
        omega
  · rintro ⟨rfl, rfl⟩
    rfl

theorem replaceFrom_length (text rest : List Char) :
    replaceFrom pattern replacement text.length (text ++ rest) =
      replaceAll pattern replacement rest := by
  induction text with
  | nil => rfl
  | cons c text ih => exact ih

theorem replaceAll_of_avoids (avoids : Avoids pattern rest text) :
    replaceAll pattern replacement (text ++ rest) =
      text ++ replaceAll pattern replacement rest := by
  induction avoids with
  | nil => rfl
  | @cons c text starts _ ih =>
      rw [List.cons_append, List.cons_append, ← ih, replaceAll, replaceFrom, if_neg, replaceAll]
      rwa [List.isPrefixOf_iff_prefix]

theorem replaceAll_occurrence (c : Char) (pattern replacement rest : List Char) :
    replaceAll (c :: pattern) replacement (c :: pattern ++ rest) =
      replacement ++ replaceAll (c :: pattern) replacement rest := by
  rw [replaceAll, List.cons_append, replaceFrom, if_pos, List.length_cons, Nat.add_sub_cancel,
    replaceFrom_length]
  rw [List.isPrefixOf_iff_prefix, ← List.cons_append]
  exact List.prefix_append _ _

abbrev Senderless (rest text : List Char) : Prop := Avoids senderMember rest text

theorem senderMember_eq :
    senderMember = literal ['f', 'r', 'o', 'm'] ++
      ':' :: literal Contract.Transaction.senderPlaceholder.toList := by
  decide +kernel

theorem senderReference_eq :
    senderReference = literal ['f', 'r', 'o', 'm'] ++ ':' :: "signerAddress".toList := by
  decide +kernel

theorem senderMember_cons : senderMember = '"' :: senderMember.tail := by
  rw [senderMember_eq]
  rfl

theorem starts_iff : senderMember <+: '"' :: text ↔ senderMember.tail <+: text := by
  rw [senderMember_cons, List.cons_prefix_cons, List.tail_cons]
  exact and_iff_right rfl

theorem senderless_cons (unquoted : c ≠ '"') (senderless : Senderless rest text) :
    Senderless rest (c :: text) := by
  refine .cons ?_ senderless
  rw [senderMember_eq, literal, List.cons_append, List.cons_append, List.cons_prefix_cons]
  exact fun same => unquoted same.1.symm

theorem senderless_of_unquoted (unquoted : ∀ c ∈ text, c ≠ '"') : Senderless rest text := by
  induction text with
  | nil => exact .nil
  | cons c text ih =>
      obtain ⟨here, unquoted⟩ := List.forall_mem_cons.mp unquoted
      exact senderless_cons here (ih unquoted)

theorem colon_of_starts (inner : ∀ c ∈ word, Quotable c) (escaped : Escaped text)
    (starts : word ++ '"' :: ':' :: more <+: text ++ '"' :: d :: rest) : d = ':' := by
  -- Within quoted text every quote is escaped, so both texts end at the same one.
  induction word generalizing text with
  | nil =>
      cases escaped with
      | nil =>
          rw [List.nil_append, List.nil_append, List.cons_prefix_cons, List.cons_prefix_cons] at starts
          exact starts.2.1.symm
      | inner here => exact absurd (List.cons_prefix_cons.mp starts).1.symm here.1
      | escape => exact absurd (List.cons_prefix_cons.mp starts).1 (by decide)
  | cons x word ih =>
      obtain ⟨first, inner⟩ := List.forall_mem_cons.mp inner
      cases escaped with
      | nil => exact absurd (List.cons_prefix_cons.mp starts).1 first.1
      | inner _ escaped => exact ih inner escaped (List.cons_prefix_cons.mp starts).2
      | escape => exact absurd (List.cons_prefix_cons.mp starts).1 first.2

theorem not_starts_of_escaped (escaped : Escaped text) (apart : d ≠ ':') :
    ¬senderMember <+: '"' :: (text ++ '"' :: d :: rest) := by
  rw [starts_iff, senderMember_eq]
  intro starts
  have starts : ['f', 'r', 'o', 'm'] ++ '"' :: ':' :: _ <+: text ++ '"' :: d :: rest := starts
  exact apart (colon_of_starts (by simp [Quotable]) escaped starts)

theorem not_starts_of_head (other : text.head? ≠ some 'f') : ¬senderMember <+: '"' :: text := by
  rw [starts_iff, senderMember_eq]
  rintro ⟨more, rfl⟩
  exact other rfl

abbrev Ending (c : Char) : Prop := c = ',' ∨ c = '}'

theorem Ending.ne (ending : Ending d) : d ≠ ':' ∧ d ≠ 'f' := by
  rcases ending with rfl | rfl <;> decide

theorem senderless_escaped (escaped : Escaped text) (ending : Ending d) :
    Senderless (d :: rest) (text ++ ['"']) := by
  induction escaped with
  | nil => exact .cons (not_starts_of_head (by simpa using ending.ne.2)) .nil
  | inner inner _ ih => exact senderless_cons inner.1 ih
  | @escape e text escaped ih =>
      refine senderless_cons (by decide) ?_
      by_cases quote : e = '"'
      · subst quote
        refine .cons ?_ ih
        simpa using not_starts_of_escaped escaped ending.ne.1
      · exact senderless_cons quote ih

theorem senderless_literal (s : List Char) (ending : Ending d) :
    Senderless (d :: rest) (literal s) := by
  have escaped := escaped_flatMap s
  refine .cons ?_ (senderless_escaped escaped ending)
  simpa using not_starts_of_escaped escaped ending.ne.1

structure Regular (field : String × Value) : Prop where
  name : literal field.1.toList = '"' :: (field.1.toList ++ ['"'])
  unquoted : ∀ c ∈ field.1.toList, c ≠ '"'
  other : field.1.toList.head? ≠ some 'f'
  value : (∃ s, field.2 = .str s) ∨ ∃ n, field.2 = .int n

theorem figures_unquoted : Figures (· ≠ '"') := by
  refine ⟨?_, by decide, by decide, by decide, by decide⟩
  rintro _ digit rfl
  exact absurd digit (by decide)

theorem senderless_behind {v : Value} (unquoted : ∀ c ∈ word, c ≠ '"')
    (value : (∃ s, v = .str s) ∨ ∃ n, v = .int n) (ending : Ending d) :
    Senderless (d :: rest) (word ++ '"' :: ':' :: v.text) := by
  have value : Senderless (d :: rest) v.text := by
    rcases value with ⟨s, rfl⟩ | ⟨n, rfl⟩
    · exact senderless_literal s.toList ending
    · exact senderless_of_unquoted (figures_unquoted.intText n)
  have closing : Senderless (d :: rest) ('"' :: ':' :: v.text) :=
    .cons (not_starts_of_head (by simp)) (senderless_cons (by decide) value)
  exact (senderless_of_unquoted unquoted).append closing

theorem senderless_member {k : String} {v : Value} (regular : Regular (k, v)) (ending : Ending d) :
    Senderless (d :: rest) (memberText k v) := by
  have quoted : memberText k v = '"' :: (k.toList ++ '"' :: ':' :: v.text) := by
    simp [memberText, regular.name]
  have head : (k.toList ++ '"' :: ':' :: v.text ++ d :: rest).head? ≠ some 'f' := by
    cases name : k.toList with
    | nil => simp
    | cons c more => simpa [name] using regular.other
  rw [quoted]
  exact .cons (not_starts_of_head head) (senderless_behind regular.unquoted regular.value ending)

theorem textFields_starts (fields : List (String × Value)) :
    ∃ d rest, Ending d ∧ textFields fields = d :: rest := by
  cases fields with
  | nil => exact ⟨'}', [], .inr rfl, rfl⟩
  | cons field fields => exact ⟨',', _, .inl rfl, rfl⟩

theorem textFields_cons (field : String × Value) (fields : List (String × Value)) :
    textFields (field :: fields) = ',' :: (memberText field.1 field.2 ++ textFields fields) := by
  rw [textFields, memberText, List.append_assoc, List.cons_append]

theorem senderless_textFields {fields : List (String × Value)}
    (regular : ∀ field ∈ fields, Regular field) : Senderless [] (textFields fields) := by
  induction fields with
  | nil => exact senderless_cons (by decide) .nil
  | cons field fields ih =>
      obtain ⟨here, regular⟩ := List.forall_mem_cons.mp regular
      obtain ⟨d, rest, ending, starts⟩ := textFields_starts fields
      have member : Senderless (textFields fields ++ []) (memberText field.1 field.2) := by
        rw [List.append_nil, starts]
        exact senderless_member here ending
      rw [textFields_cons]
      exact senderless_cons (by decide) (member.append (ih regular))

def opening (fields : List (String × Value)) : List Char :=
  '{' :: fields.flatMap fun field => memberText field.1 field.2 ++ [',']

theorem senderless_opening {fields : List (String × Value)}
    (regular : ∀ field ∈ fields, Regular field) (rest : List Char) :
    Senderless rest (opening fields) := by
  refine senderless_cons (by decide) ?_
  induction fields with
  | nil => exact .nil
  | cons field fields ih =>
      obtain ⟨here, regular⟩ := List.forall_mem_cons.mp regular
      have comma := senderless_cons (c := ',') (by decide) (ih regular)
      rw [List.flatMap_cons, List.append_assoc]
      exact (senderless_member here (.inl rfl)).append comma

def otherNames : List String :=
  ["to", "nonce", "chainId", "gasLimit", "value", "data", "maxPriorityFeePerGas", "maxFeePerGas", "type"]

theorem regular_of_mem {k : String} {v : Value} (known : k ∈ otherNames)
    (value : (∃ s, v = .str s) ∨ ∃ n, v = .int n) : Regular (k, v) := by
  have names : ∀ k ∈ otherNames, literal k.toList = '"' :: (k.toList ++ ['"']) ∧
      '"' ∉ k.toList ∧ k.toList.head? ≠ some 'f' := by decide +kernel
  obtain ⟨name, unquoted, other⟩ := names k known
  exact ⟨name, fun c mem => ne_of_mem_of_not_mem mem unquoted, other, value⟩

theorem regular_field? {k : String} (known : k ∈ otherNames) (value? : Option String) :
    ∀ field ∈ Form.field? k .str value?, Regular field := by
  cases value? with
  | none => exact List.forall_mem_nil _
  | some s => exact List.forall_mem_singleton.mpr (regular_of_mem known (.inl ⟨s, rfl⟩))

theorem regular_fieldsBefore (t : Contract.Transaction) : ∀ field ∈ t.fieldsBefore, Regular field := by
  simp only [Contract.Transaction.fieldsBefore, List.forall_mem_cons]
  exact ⟨regular_of_mem (by decide) (.inl ⟨_, rfl⟩), regular_of_mem (by decide) (.inr ⟨_, rfl⟩),
    regular_of_mem (by decide) (.inr ⟨_, rfl⟩), regular_of_mem (by decide) (.inl ⟨_, rfl⟩),
    List.forall_mem_nil _⟩

theorem regular_fieldsAfter (t : Contract.Transaction) : ∀ field ∈ t.fieldsAfter, Regular field := by
  simp only [Contract.Transaction.fieldsAfter, List.forall_mem_append, List.forall_mem_cons]
  exact ⟨⟨⟨⟨regular_of_mem (by decide) (.inl ⟨_, rfl⟩), regular_of_mem (by decide) (.inl ⟨_, rfl⟩),
    List.forall_mem_nil _⟩, regular_field? (by decide) _⟩, regular_field? (by decide) _⟩,
    regular_of_mem (by decide) (.inr ⟨_, rfl⟩), List.forall_mem_nil _⟩

theorem opening_cons (field : String × Value) (fields : List (String × Value)) :
    opening (field :: fields) =
      '{' :: (memberText field.1 field.2 ++ (membersText fields ++ [','])) := by
  have moved (fields : List (String × Value)) :
      ',' :: fields.flatMap (fun field => memberText field.1 field.2 ++ [',']) =
        membersText fields ++ [','] := by
    induction fields with
    | nil => rfl
    | cons field fields ih =>
        rw [List.flatMap_cons, List.append_assoc, List.singleton_append, ih]
        simp [membersText]
  rw [← moved, opening, List.flatMap_cons, List.append_assoc, List.singleton_append]

theorem text_map_append (fields : List (String × Value)) (field : String × Value)
    (others : List (String × Value)) :
    (Value.map (fields ++ field :: others)).text =
      opening fields ++ (memberText field.1 field.2 ++ textFields others) := by
  cases fields with
  | nil => simp [Value.text, opening, memberText]
  | cons first fields =>
      rw [List.cons_append, Value.text, textFields_append, textFields, opening_cons]
      simp [memberText]

theorem transactionText_eq {t : Contract.Transaction}
    (sender : t.sender = Contract.Transaction.senderPlaceholder) :
    t.write.text = opening t.fieldsBefore ++ (senderMember ++ textFields t.fieldsAfter) ∧
    transactionText t =
      opening t.fieldsBefore ++ (senderReference ++ textFields t.fieldsAfter) := by
  have written : t.write.text =
      opening t.fieldsBefore ++ (senderMember ++ textFields t.fieldsAfter) := by
    rw [Contract.Transaction.write, text_map_append, sender, senderMember_eq]
    rfl
  have before := senderless_opening (regular_fieldsBefore t) (senderMember ++ textFields t.fieldsAfter)
  have after := senderless_textFields (regular_fieldsAfter t)
  refine ⟨written, ?_⟩
  calc transactionText t
      = opening t.fieldsBefore ++
          replaceAll senderMember senderReference (senderMember ++ textFields t.fieldsAfter) := by
        rw [transactionText, written, replaceAll_of_avoids before]
    _ = opening t.fieldsBefore ++
          (senderReference ++ replaceAll senderMember senderReference (textFields t.fieldsAfter)) := by
        rw [senderMember_cons, replaceAll_occurrence]
    _ = opening t.fieldsBefore ++ (senderReference ++ textFields t.fieldsAfter) := by
        rw [← List.append_nil (textFields t.fieldsAfter), replaceAll_of_avoids after]
        rfl

end Tripwire.Script
