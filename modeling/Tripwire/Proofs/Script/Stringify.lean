import Tripwire.Proofs.Script.Language
import Tripwire.Proofs.Value.Literal

namespace Tripwire.Script.Datum

def isNumeral (c : Char) : Bool := c.isDigit || c = '-' || c = '+' || c = '.' || c = 'e'

/-- What is known of the text that is written for a number: it tells apart the numbers that differ. Both zeros
are written alike. -/
structure Writes (write : Double → List Char) : Prop where
  nonempty : ∀ x, x.isFinite → write x ≠ []
  numerals : ∀ x, x.isFinite → ∀ c ∈ write x, isNumeral c
  tells : ∀ x y, x.isFinite → y.isFinite → (write x = write y ↔ x.compare? y = some .eq)

mutual

def finite : Datum → Bool
  | .number x => x.isFinite
  | .array items => finiteItems items
  | .object members => finiteMembers members
  | .null | .bool _ | .string _ => true

def finiteItems : List Datum → Bool
  | [] => true
  | x :: xs => finite x && finiteItems xs

def finiteMembers : List (String × Datum) → Bool
  | [] => true
  | (_, x) :: members => finite x && finiteMembers members

end

mutual

def alike : Datum → Datum → Bool
  | .null, .null => true
  | .bool p, .bool q => p = q
  | .number x, .number y => x.compare? y = some .eq
  | .string s, .string t => s = t
  | .array xs, .array ys => alikeItems xs ys
  | .object ms, .object ns => alikeMembers ms ns
  | _, _ => false

def alikeItems : List Datum → List Datum → Bool
  | [], [] => true
  | x :: xs, y :: ys => alike x y && alikeItems xs ys
  | _, _ => false

def alikeMembers : List (String × Datum) → List (String × Datum) → Bool
  | [], [] => true
  | (k, x) :: ms, (l, y) :: ns => k = l && alike x y && alikeMembers ms ns
  | _, _ => false

end

def Ends (rest : List Char) : Prop := ∀ c ∈ rest.head?, isNumeral c = false

variable {write : Double → List Char} {s t : List Char}

theorem numerals_append_inj {u v : List Char} (left : ∀ c ∈ u, isNumeral c)
    (right : ∀ c ∈ v, isNumeral c) (ends : Ends s) (ends' : Ends t) (same : u ++ s = v ++ t) :
    u = v ∧ s = t :=
  Text.append_inj_of_class left right ends ends' same

def kind : Datum → Nat
  | .null => 0
  | .bool _ => 1
  | .number _ => 2
  | .string _ => 3
  | .array _ => 4
  | .object _ => 5

def kindOf (c : Char) : Nat :=
  if c = 'n' then 0
  else if c = 't' ∨ c = 'f' then 1
  else if isNumeral c then 2
  else if c = '"' then 3
  else if c = '[' then 4
  else if c = '\x7b' then 5
  else 6

theorem kindOf_of_isNumeral {c : Char} (numeral : isNumeral c) : kindOf c = 2 := by
  have differs {other : Char} (special : isNumeral other = false) : c ≠ other := by
    rintro rfl
    exact absurd numeral (by simp [special])
  rw [kindOf, if_neg (differs (by decide)),
    if_neg (not_or.mpr ⟨differs (by decide), differs (by decide)⟩), if_pos numeral]

theorem stringify_eq_cons (writes : Writes write) {x : Datum} (finite : x.finite) :
    ∃ c rest, x.stringify write = c :: rest ∧ kindOf c = x.kind := by
  cases x with
  | null => exact ⟨_, _, rfl, by decide⟩
  | bool b => cases b <;> exact ⟨_, _, rfl, by decide⟩
  | number x =>
      rw [Datum.finite] at finite
      obtain ⟨c, rest, written⟩ := List.exists_cons_of_ne_nil (writes.nonempty x finite)
      refine ⟨c, rest, by rw [stringify, if_pos finite, written], kindOf_of_isNumeral ?_⟩
      exact writes.numerals x finite c (by rw [written]; exact List.mem_cons_self)
  | string s => exact ⟨_, _, rfl, (by decide : kindOf '"' = 3)⟩
  | array items => cases items <;> exact ⟨_, _, rfl, (by decide : kindOf '[' = 4)⟩
  | object members =>
      have brace : kindOf '\x7b' = 5 := by decide
      match members with
      | [] => exact ⟨_, _, rfl, brace⟩
      | (k, x) :: members => exact ⟨_, _, rfl, brace⟩

theorem kind_eq (writes : Writes write) {x y : Datum} (finite : x.finite) (finite' : y.finite)
    (same : x.stringify write ++ s = y.stringify write ++ t) : x.kind = y.kind := by
  obtain ⟨c, rest, text, first⟩ := stringify_eq_cons writes finite
  obtain ⟨d, rest', text', first'⟩ := stringify_eq_cons writes finite'
  rw [text, text', List.cons_append, List.cons_append] at same
  rw [← first, ← first', (List.cons.inj same).1]

theorem stringify_ne (writes : Writes write) {x : Datum} (finite : x.finite) :
    ']' :: s ≠ x.stringify write ++ t := by
  obtain ⟨c, rest, text, first⟩ := stringify_eq_cons writes finite
  rw [text, List.cons_append]
  intro same
  have bracket : kindOf ']' = 6 := by decide
  rw [← (List.cons.inj same).1, bracket] at first
  cases x <;> cases first

theorem stringifyItems_of_array (writes : Writes write) {xs ys : List Datum} (finite : finiteItems xs)
    (finite' : finiteItems ys)
    (same : (array xs).stringify write ++ s = (array ys).stringify write ++ t) :
    stringifyItems write xs ++ s = stringifyItems write ys ++ t := by
  cases xs with
  | nil =>
      cases ys with
      | nil => exact congrArg List.tail same
      | cons y ys =>
          rw [finiteItems, Bool.and_eq_true] at finite'
          have same : ']' :: s = y.stringify write ++ (stringifyItems write ys ++ t) := by
            simpa [stringify] using same
          exact absurd same (stringify_ne writes finite'.1)
  | cons x xs =>
      cases ys with
      | nil =>
          rw [finiteItems, Bool.and_eq_true] at finite
          have same : ']' :: t = x.stringify write ++ (stringifyItems write xs ++ s) := by
            simpa [stringify] using same.symm
          exact absurd same (stringify_ne writes finite.1)
      | cons y ys => exact congrArg (',' :: List.tail ·) same

theorem stringifyMembers_of_object {ms ns : List (String × Datum)}
    (same : (object ms).stringify write ++ s = (object ns).stringify write ++ t) :
    stringifyMembers write ms ++ s = stringifyMembers write ns ++ t := by
  match ms, ns with
  | [], [] => exact congrArg List.tail same
  | [], (l, y) :: ns => exact absurd (List.cons.inj (List.cons.inj same).2).1 (by decide)
  | (k, x) :: ms, [] => exact absurd (List.cons.inj (List.cons.inj same).2).1 (by decide)
  | (k, x) :: ms, (l, y) :: ns => exact congrArg (',' :: List.tail ·) same

theorem ends_cons {c : Char} (special : isNumeral c = false) : Ends (c :: s) := by
  intro d first
  obtain rfl := Option.some.inj first
  exact special

theorem ends_items (xs : List Datum) : Ends (stringifyItems write xs ++ s) := by
  cases xs <;> exact ends_cons (by decide)

theorem ends_members (ms : List (String × Datum)) : Ends (stringifyMembers write ms ++ s) := by
  match ms with
  | [] => exact ends_cons (by decide)
  | _ :: _ => exact ends_cons (by decide)

mutual

theorem alike_of_stringify (writes : Writes write) {x y : Datum} {s t : List Char} (finite : x.finite)
    (finite' : y.finite) (ends : Ends s) (ends' : Ends t)
    (same : x.stringify write ++ s = y.stringify write ++ t) : x.alike y ∧ s = t := by
  -- The first character tells the kind.
  have kinds := kind_eq writes finite finite' same
  cases x with
  | null =>
      cases y with
      | null => exact ⟨rfl, List.append_cancel_left same⟩
      | _ => simp [kind] at kinds
  | bool p =>
      cases y with
      | bool q => cases p <;> cases q <;> simp_all [stringify, alike]
      | _ => simp [kind] at kinds
  | number a =>
      cases y with
      | number b =>
          rw [Datum.finite] at finite finite'
          rw [stringify, stringify, if_pos finite, if_pos finite'] at same
          obtain ⟨written, rest⟩ := numerals_append_inj (writes.numerals a finite)
            (writes.numerals b finite') ends ends' same
          rw [writes.tells a b finite finite'] at written
          exact ⟨by simp [alike, written], rest⟩
      | _ => simp [kind] at kinds
  | string a =>
      cases y with
      | string b =>
          rw [stringify, stringify] at same
          obtain ⟨chars, rest⟩ := Value.literal_append_inj same
          exact ⟨by simp [alike, String.toList_inj.mp chars], rest⟩
      | _ => simp [kind] at kinds
  | array xs =>
      cases y with
      | array ys =>
          rw [Datum.finite] at finite finite'
          have items := stringifyItems_of_array writes finite finite' same
          exact alike_of_stringifyItems writes finite finite' items
      | _ => simp [kind] at kinds
  | object ms =>
      cases y with
      | object ns =>
          rw [Datum.finite] at finite finite'
          exact alike_of_stringifyMembers writes finite finite' (stringifyMembers_of_object same)
      | _ => simp [kind] at kinds

theorem alike_of_stringifyItems (writes : Writes write) {xs ys : List Datum} {s t : List Char}
    (finite : finiteItems xs) (finite' : finiteItems ys)
    (same : stringifyItems write xs ++ s = stringifyItems write ys ++ t) :
    alikeItems xs ys ∧ s = t := by
  cases xs with
  | nil =>
      cases ys with
      | nil => exact ⟨rfl, List.append_cancel_left same⟩
      | cons y ys => exact absurd (List.cons.inj same).1 (by decide)
  | cons x xs =>
      cases ys with
      | nil => exact absurd (List.cons.inj same).1 (by decide)
      | cons y ys =>
          rw [finiteItems, Bool.and_eq_true] at finite finite'
          rw [stringifyItems, stringifyItems, List.cons_append, List.cons_append, List.append_assoc,
            List.append_assoc] at same
          obtain ⟨here, later⟩ := alike_of_stringify writes finite.1 finite'.1 (ends_items xs)
            (ends_items ys) (List.cons.inj same).2
          obtain ⟨others, rest⟩ := alike_of_stringifyItems writes finite.2 finite'.2 later
          exact ⟨by rw [alikeItems, here, others, Bool.and_self], rest⟩

theorem alike_of_stringifyMembers (writes : Writes write) {ms ns : List (String × Datum)}
    {s t : List Char} (finite : finiteMembers ms) (finite' : finiteMembers ns)
    (same : stringifyMembers write ms ++ s = stringifyMembers write ns ++ t) :
    alikeMembers ms ns ∧ s = t := by
  match ms, ns with
  | [], [] => exact ⟨rfl, List.append_cancel_left same⟩
  | [], _ :: _ => exact absurd (List.cons.inj same).1 (by decide)
  | _ :: _, [] => exact absurd (List.cons.inj same).1 (by decide)
  | (k, x) :: ms, (l, y) :: ns =>
      rw [finiteMembers, Bool.and_eq_true] at finite finite'
      rw [stringifyMembers, stringifyMembers] at same
      simp only [List.cons_append, List.append_assoc, List.cons.injEq, true_and] at same
      obtain ⟨name, value⟩ := Value.literal_append_inj same
      obtain ⟨here, later⟩ := alike_of_stringify writes finite.1 finite'.1 (ends_members ms)
        (ends_members ns) (List.cons.inj value).2
      obtain ⟨others, rest⟩ := alike_of_stringifyMembers writes finite.2 finite'.2 later
      exact ⟨by simp [alikeMembers, String.toList_inj.mp name, here, others], rest⟩

end

mutual

theorem stringify_of_alike (writes : Writes write) {x y : Datum} (finite : x.finite)
    (finite' : y.finite) (same : x.alike y) : x.stringify write = y.stringify write := by
  cases x with
  | null =>
      cases y with
      | null => rfl
      | _ => simp [alike] at same
  | bool p =>
      cases y with
      | bool q =>
          rw [alike, decide_eq_true_eq] at same
          rw [same]
      | _ => simp [alike] at same
  | number a =>
      cases y with
      | number b =>
          rw [Datum.finite] at finite finite'
          rw [alike, decide_eq_true_eq] at same
          rw [stringify, stringify, if_pos finite, if_pos finite', (writes.tells a b finite finite').mpr same]
      | _ => simp [alike] at same
  | string a =>
      cases y with
      | string b =>
          rw [alike, decide_eq_true_eq] at same
          rw [same]
      | _ => simp [alike] at same
  | array xs =>
      cases y with
      | array ys =>
          rw [Datum.finite] at finite finite'
          have items := stringifyItems_of_alike writes finite finite' same
          match xs, ys with
          | [], [] => rfl
          | [], _ :: _ | _ :: _, [] => simp [alike, alikeItems] at same
          | _ :: _, _ :: _ => exact congrArg ('[' :: List.tail ·) items
      | _ => simp [alike] at same
  | object ms =>
      cases y with
      | object ns =>
          rw [Datum.finite] at finite finite'
          have members := stringifyMembers_of_alike writes finite finite' same
          match ms, ns with
          | [], [] => rfl
          | [], _ :: _ | _ :: _, [] => simp [alike, alikeMembers] at same
          | (_, _) :: _, (_, _) :: _ => exact congrArg ('\x7b' :: List.tail ·) members
      | _ => simp [alike] at same

theorem stringifyItems_of_alike (writes : Writes write) {xs ys : List Datum} (finite : finiteItems xs)
    (finite' : finiteItems ys) (same : alikeItems xs ys) :
    stringifyItems write xs = stringifyItems write ys := by
  match xs, ys with
  | [], [] => rfl
  | [], _ :: _ | _ :: _, [] => simp [alikeItems] at same
  | x :: xs, y :: ys =>
      rw [finiteItems, Bool.and_eq_true] at finite finite'
      rw [alikeItems, Bool.and_eq_true] at same
      rw [stringifyItems, stringifyItems, stringify_of_alike writes finite.1 finite'.1 same.1,
        stringifyItems_of_alike writes finite.2 finite'.2 same.2]

theorem stringifyMembers_of_alike (writes : Writes write) {ms ns : List (String × Datum)}
    (finite : finiteMembers ms) (finite' : finiteMembers ns) (same : alikeMembers ms ns) :
    stringifyMembers write ms = stringifyMembers write ns := by
  match ms, ns with
  | [], [] => rfl
  | [], _ :: _ | _ :: _, [] => simp [alikeMembers] at same
  | (k, x) :: ms, (l, y) :: ns =>
      rw [finiteMembers, Bool.and_eq_true] at finite finite'
      rw [alikeMembers, Bool.and_eq_true, Bool.and_eq_true, decide_eq_true_eq] at same
      obtain ⟨⟨name, here⟩, others⟩ := same
      rw [stringifyMembers, stringifyMembers, name, stringify_of_alike writes finite.1 finite'.1 here,
        stringifyMembers_of_alike writes finite.2 finite'.2 others]

end

theorem stringify_eq_iff (writes : Writes write) {x y : Datum} (finite : x.finite)
    (finite' : y.finite) : x.stringify write = y.stringify write ↔ x.alike y := by
  constructor
  · intro same
    have ends : Ends [] := nofun
    exact (alike_of_stringify writes finite finite' ends ends (by rw [same])).1
  · exact stringify_of_alike writes finite finite'

end Tripwire.Script.Datum
