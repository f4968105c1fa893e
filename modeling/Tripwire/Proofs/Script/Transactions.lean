import Tripwire.Proofs.Script.Lookups
import Tripwire.Proofs.Script.Sender

/-!
# The text of transactions

A transaction is written as an object. Its sender stands in one place of the text, whatever the other members
hold. The routine of a contract call has the same object, with the name of the signer's address in that place.
-/
namespace Tripwire.Script
open Value

variable {t : Contract.Transaction}

def objectText (members : List (String × List Char)) : List Char :=
  '{' :: ([','].intercalate (members.map fun m => literal m.1.toList ++ ':' :: m.2) ++ ['}'])

def shown (fields : List (String × Value)) : List (String × List Char) :=
  fields.map fun field => (field.1, field.2.text)

theorem intercalate_comma (members : List (List Char)) (m : List Char) :
    [','].intercalate (m :: members) = m ++ members.flatMap (',' :: ·) := by
  induction members generalizing m with
  | nil => simp
  | cons next members ih =>
      rw [List.intercalate_cons_cons, ih, List.append_assoc, List.flatMap_cons]
      simp

theorem intercalate_append (first last : List (List Char)) (m : List Char) :
    [','].intercalate (first ++ m :: last) =
      first.flatMap (· ++ [',']) ++ (m ++ last.flatMap (',' :: ·)) := by
  induction first with
  | nil => exact intercalate_comma last m
  | cons next first ih =>
      rw [List.cons_append, List.intercalate_cons_of_ne_nil (by simp), ih, List.flatMap_cons]
      simp only [List.append_assoc]

theorem objectText_append (fields others : List (String × Value)) (name : String) (text : List Char) :
    objectText (shown fields ++ (name, text) :: shown others) =
      opening fields ++ (literal name.toList ++ ':' :: (text ++ textFields others)) := by
  have last : textFields others = membersText others ++ ['}'] := by
    rw [← textFields, ← textFields_append, List.append_nil]
  rw [objectText, List.map_append, List.map_cons, intercalate_append, opening, last]
  simp [shown, membersText, memberText, List.flatMap_map]

def signing (name : List Char) : List Char :=
  ";\n  await ".toList ++ signCall.toList ++
    "(\x7b toSign: hashTransaction(tx), publicKey, sigName: ".toList ++ Text.quoted name ++
    " \x7d);\n  ".toList ++ resultsName.toList ++ '[' :: Text.quoted name ++
    "] = tx;\n\x7d;\n".toList

theorem text_contract (name : String) (kind : Action.Kind) (priority : Nat) (t : Contract.Transaction) :
    (Routine.mk name kind priority (.contract t)).text =
      "const ".toList ++ name.toList ++ " = async () => \x7b\n  const tx = ".toList ++
        (transactionText t ++ signing name.toList) := by
  unfold Routine.text bodyText signing
  simp only [List.append_assoc, List.cons_append]
  rfl

theorem sender_occurs_iff {fields others : List (String × Value)} {front back : List Char}
    (before : ∀ field ∈ fields, Regular field) (after : ∀ field ∈ others, Regular field) :
    opening fields ++ (senderMember ++ textFields others) = front ++ (senderMember ++ back) ↔
      front = opening fields ∧ back = textFields others := by
  obtain ⟨d, rest, ending, starts⟩ := textFields_starts others
  have unquoted : ∀ c ∈ ['f', 'r', 'o', 'm'], c ≠ '"' := by simp
  have behind : Senderless (textFields others) senderMember.tail := by
    rw [starts, senderMember_eq]
    exact senderless_behind unquoted (.inl ⟨_, rfl⟩) ending
  have first := senderless_opening before (senderMember ++ textFields others)
  have last : Senderless [] (senderMember.tail ++ textFields others) :=
    Avoids.append (by rwa [List.append_nil]) (senderless_textFields after)
  rw [Senderless, senderMember_cons] at first last
  rw [senderMember_cons]
  exact occurs_iff first last

/-- In the text of an accepted transaction the member of the sender occurs in one place, and the routine of the
call has the same object but for the value there. -/
theorem sender_alone_is_replaced {a : ContractAction} (accepted : Contract.Transaction.ofAction a = .ok t) :
    t.write = .map (t.fieldsBefore ++
      ("from", .str Contract.Transaction.senderPlaceholder) :: t.fieldsAfter) ∧
    (∀ field ∈ t.fieldsBefore ++ t.fieldsAfter, field.1 ≠ "from") ∧
    t.write.text = objectText (shown t.fieldsBefore ++
      ("from", literal Contract.Transaction.senderPlaceholder.toList) :: shown t.fieldsAfter) ∧
    (∀ front back, t.write.text = front ++ (senderMember ++ back) ↔
      front = opening t.fieldsBefore ∧ back = textFields t.fieldsAfter) ∧
    ∃ r, Routine.ofAction (.contract a) = .ok r ∧
      r.text = "const ".toList ++ r.name.toList ++ " = async () => \x7b\n  const tx = ".toList ++
        (objectText (shown t.fieldsBefore ++ ("from", "signerAddress".toList) :: shown t.fieldsAfter) ++
          signing r.name.toList) := by
  have sender := sender_of_ofAction accepted
  obtain ⟨written, replaced⟩ := transactionText_eq sender
  refine ⟨?_, ?_, ?_, ?_, ?_⟩
  · rw [Contract.Transaction.write, sender]
  · have regular := List.forall_mem_append.mpr ⟨regular_fieldsBefore t, regular_fieldsAfter t⟩
    intro field mem named
    exact (regular field mem).other (by rw [named]; rfl)
  · rw [objectText_append, written, senderMember_eq]
    simp
  · intro front back
    rw [written]
    exact sender_occurs_iff (regular_fieldsBefore t) (regular_fieldsAfter t)
  · have made : Routine.ofAction (.contract a) =
        .ok ⟨(Action.contract a).unitName, .contract, a.priority, .contract t⟩ := by
      rw [Routine.ofAction, accepted]
      rfl
    have object : transactionText t = objectText (shown t.fieldsBefore ++
        ("from", "signerAddress".toList) :: shown t.fieldsAfter) := by
      rw [replaced, objectText_append, senderReference_eq]
      simp
    exact ⟨_, made, by rw [text_contract, object]⟩

def sampleQuoting : ContractAction where
  priority := 1
  address := "0x1111111111111111111111111111111111111111"
  abi := .list [.map [("name", .str "ping")]]
  function := "ping"
  args := []
  chain := "polygon"
  nonce? := some 7
  gasLimit? := some "\"from\":\"\x7b\x7bsignerAddress\x7d\x7d\""
  value? := some "\\\",\"from\":\"\x7b\x7bsignerAddress\x7d\x7d\",\"x\":\""
  maxPriorityFee? := none
  maxFee? := some "\"from\""

theorem sampleQuoting_sender :
    ∃ t, Contract.Transaction.ofAction sampleQuoting = .ok t ∧
      (∀ front back, t.write.text = front ++ (senderMember ++ back) ↔
        front = opening t.fieldsBefore ∧ back = textFields t.fieldsAfter) ∧
      ∃ r, Routine.ofAction (.contract sampleQuoting) = .ok r ∧
        r.text = "const ".toList ++ r.name.toList ++ " = async () => \x7b\n  const tx = ".toList ++
          (objectText (shown t.fieldsBefore ++ ("from", "signerAddress".toList) :: shown t.fieldsAfter) ++
            signing r.name.toList) := by
  obtain ⟨t, accepted⟩ : ∃ t, Contract.Transaction.ofAction sampleQuoting = .ok t := ⟨_, rfl⟩
  exact ⟨t, accepted, (sender_alone_is_replaced accepted).2.2.2⟩

end Tripwire.Script
