import Tripwire.Proofs.Script.Decisions
import Tripwire.Proofs.Script.Representation

/-!
# Agreement on signatures

Where a script decides about a signature as it is decided here. The two read the same document; a script keeps
the order of its members and has doubles for all numbers.
-/
namespace Tripwire

namespace Value

mutual

def arranged : Value → Value
  | .list items => .list (arrangedItems items)
  | .map fields => .map (arrangedFields [] fields)
  | v => v

def arrangedItems : List Value → List Value
  | [] => []
  | v :: items => arranged v :: arrangedItems items

def arrangedFields (before : List (String × Value)) : List (String × Value) → List (String × Value)
  | [] => before
  | (k, v) :: fields => arrangedFields (insertField k (arranged v) before) fields

end

end Value

namespace Script
open Tripwire.Action (Comparison SignCondition)

/-- What a comparison of data that a script does not order asks of them. If they are the same here, no order may
be asked for, and for equality a script must find them alike exactly if they are the same. -/
def AgreesUnordered (c : Comparison) (alike same : Bool) : Prop :=
  match c with
  | .lt | .gt => True
  | .le | .ge => same = false
  | .eq | .strictEq | .ne | .strictNe => alike = same

def Agrees (c : Comparison) (document value : Value) : Prop :=
  match document, value with
  | .str s, .str t => c.isOrdering → Text.crossed s.toList t.toList = false
  | .null, .null | .list _, .list _ | .map _, .map _ =>
      AgreesUnordered c (document.datum.alike value.datum) (document.arranged.same value)
  | _, _ => True

variable {write : Double → List Char} {x y : Datum} {c : Comparison}

theorem relates_of_order {order? : Option Ordering} (order : x.order? y = some order?) :
    x.relates write y c = c.accepts order? := by
  cases c <;> simp [Datum.relates, Datum.equals, order, Comparison.accepts]

theorem accepts_eq_iff {o o' : Ordering} (equal : o = .eq ↔ o' = .eq) :
    c.accepts (some o) = c.accepts (some o') ↔ (c.isOrdering → o = o') := by
  cases c <;> cases o <;> cases o' <;> simp_all [Comparison.accepts, Comparison.isOrdering]

theorem relates_eq_accepts_iff (writes : Datum.Writes write) (finite : x.finite) (finite' : y.finite)
    (unordered : x.order? y = none) (same : Bool) :
    x.relates write y c = c.accepts (if same then some .eq else none) ↔
      AgreesUnordered c (x.alike y) same := by
  have equals : x.equals write y = x.alike y := by
    rw [Datum.equals, unordered]
    simp [Datum.stringify_eq_iff writes finite finite']
  cases c <;> cases same <;>
    simp [Datum.relates, AgreesUnordered, unordered, equals, Comparison.accepts]

theorem compare?_of_unordered (document value : Value)
    (unordered : document.datum.order? value.datum = none) :
    document.arranged.compare? value = if document.arranged.same value then some .eq else none := by
  cases document <;> cases value <;> first | rfl | cases unordered

theorem agreesUnordered_false (c : Comparison) : AgreesUnordered c false false := by
  cases c <;> trivial

theorem agreesUnordered_iff (document value : Value)
    (unordered : document.datum.order? value.datum = none) :
    AgreesUnordered c (document.datum.alike value.datum) (document.arranged.same value) ↔
      Agrees c document value := by
  cases document <;> cases value <;>
    first
    | exact Iff.rfl
    | exact iff_of_true (agreesUnordered_false c) trivial
    | cases unordered

theorem compareText_eq_eq_iff (s t : String) : Value.compareText s t = .eq ↔ s = t := by
  unfold Value.compareText
  split
  · rename_i below
    refine iff_of_false nofun ?_
    rintro rfl
    exact String.lt_irrefl s below
  · split <;> simp_all

theorem agrees_of_ordered (document value : Value) {order? : Option Ordering}
    (order : document.datum.order? value.datum = some order?) :
    c.accepts order? = c.accepts (document.arranged.compare? value) ↔ Agrees c document value := by
  cases document with
  | str s =>
      cases value with
      | str t =>
          obtain rfl := Option.some.inj order
          have equal := (Text.compareUnits_eq_eq_iff s t).trans (compareText_eq_eq_iff s t).symm
          refine (accepts_eq_iff equal).trans ?_
          rw [Text.compareUnits_eq_compareText_iff]
          exact Iff.rfl
      | _ => cases order
  | bool p =>
      cases value with
      | bool q =>
          obtain rfl := Option.some.inj order
          exact iff_of_true (by cases p <;> cases q <;> rfl) trivial
      | _ => cases order
  | int n =>
      cases value with
      | int m | float y =>
          obtain rfl := Option.some.inj order
          exact iff_of_true rfl trivial
      | _ => cases order
  | float x =>
      cases value with
      | int m | float y =>
          obtain rfl := Option.some.inj order
          exact iff_of_true rfl trivial
      | _ => cases order
  | null | list | map => cases value <;> cases order

theorem relates_eq_holds_iff (writes : Datum.Writes write) (document : Value) (condition : SignCondition)
    (finite : document.datum.finite) (finite' : condition.value.datum.finite) :
    document.datum.relates write condition.value.datum condition.comparison =
        condition.holds document.arranged ↔
      Agrees condition.comparison document condition.value := by
  rw [SignCondition.holds]
  cases order : document.datum.order? condition.value.datum with
  | none =>
      rw [compare?_of_unordered _ _ order, relates_eq_accepts_iff writes finite finite' order]
      exact agreesUnordered_iff _ _ order
  | some order? =>
      rw [relates_of_order order]
      exact agrees_of_ordered _ _ order

theorem signs_eq_foldl (conditions : List SignCondition) (actual : Value) :
    SignCondition.signs conditions actual = conditions.foldl (SignCondition.join actual)
      (conditions.head?.any fun c => c.joiner = .and) := by
  cases conditions <;> rfl

theorem join_eq_of_relates {document : Value} {condition : SignCondition}
    (same : document.datum.relates write condition.value.datum condition.comparison =
      condition.holds document.arranged) (soFar : Bool) :
    document.datum.join write soFar condition =
      SignCondition.join document.arranged soFar condition := by
  unfold Datum.join SignCondition.join
  cases condition.joiner with
  | and => exact congrArg (soFar && ·) same
  | or => exact congrArg (soFar || ·) same

theorem foldl_join_eq {document : Value} {conditions : List SignCondition}
    (same : ∀ condition ∈ conditions,
      document.datum.relates write condition.value.datum condition.comparison =
        condition.holds document.arranged) (soFar : Bool) :
    conditions.foldl (document.datum.join write) soFar =
      conditions.foldl (SignCondition.join document.arranged) soFar := by
  induction conditions generalizing soFar with
  | nil => rfl
  | cons condition conditions ih =>
      obtain ⟨here, later⟩ := List.forall_mem_cons.mp same
      rw [List.foldl_cons, List.foldl_cons, join_eq_of_relates here]
      exact ih later _

theorem signs_singleton (condition : SignCondition) (actual : Value) :
    SignCondition.signs [condition] actual = condition.holds actual := by
  rw [SignCondition.signs, List.foldl_cons, List.foldl_nil, SignCondition.join]
  cases condition.joiner <;> simp

theorem foldl_join_singleton (document : Datum) (condition : SignCondition) :
    [condition].foldl (document.join write) ([condition].head?.any fun c => c.joiner = .and) =
      document.relates write condition.value.datum condition.comparison := by
  rw [List.foldl_cons, List.foldl_nil, Datum.join]
  cases joiner : condition.joiner <;> simp [joiner]

/-- A script compares two values as they are compared here exactly if it agrees on them, and so it decides by a
single condition. If it agrees on all conditions, it signs what is signed here. -/
theorem signatures_agree_iff (writes : Datum.Writes write) (document : Value)
    (finite : document.datum.finite) :
    lines (helpers.flatMap Definition.text) <:+ prelude ∧
      (∀ condition : SignCondition, condition.value.datum.finite →
        (run write "compare"
              [document.datum, .string condition.comparison.symbol, condition.value.datum] =
            some (.bool (condition.holds document.arranged)) ↔
          Agrees condition.comparison document condition.value) ∧
        (run write "checkSignCondition"
              [document.datum, (Value.list ([condition].map SignCondition.write)).datum] =
            some (.bool (SignCondition.signs [condition] document.arranged)) ↔
          Agrees condition.comparison document condition.value)) ∧
      ∀ conditions : List SignCondition,
        (∀ c ∈ conditions, c.value.datum.finite ∧ Agrees c.comparison document c.value) →
        run write "checkSignCondition"
            [document.datum, (Value.list (conditions.map SignCondition.write)).datum] =
          some (.bool (SignCondition.signs conditions document.arranged)) := by
  refine ⟨helpers_suffix_prelude, ?_, ?_⟩
  · intro condition finite'
    have agrees := relates_eq_holds_iff writes document condition finite finite'
    constructor
    · rwa [Helper.run_compare, Option.some.injEq, Datum.bool.injEq]
    · rwa [Helper.run_checkSignCondition, foldl_join_singleton, signs_singleton, Option.some.injEq,
        Datum.bool.injEq]
  · intro conditions agree
    have same (condition : SignCondition) (mem : condition ∈ conditions) :
        document.datum.relates write condition.value.datum condition.comparison =
          condition.holds document.arranged :=
      (relates_eq_holds_iff writes document condition finite (agree condition mem).1).mpr
        (agree condition mem).2
    rw [Helper.run_checkSignCondition, foldl_join_eq same, signs_eq_foldl]

theorem isNumeral_intText (n : Int) : ∀ c ∈ Value.intText n, Datum.isNumeral c ∧ c ≠ 'e' := by
  have digits : ∀ c ∈ Text.Numeral.write n.natAbs, Datum.isNumeral c ∧ c ≠ 'e' := by
    intro c mem
    have digit : c.isDigit := Nat.isDigit_of_mem_toDigits (by decide) (by decide) mem
    refine ⟨by simp [Datum.isNumeral, digit], ?_⟩
    rintro rfl
    exact absurd digit (by decide)
  unfold Value.intText
  split
  · exact List.forall_mem_cons.mpr ⟨by decide, digits⟩
  · exact digits

theorem minus_cons_ne (n : Nat) (s : List Char) : '-' :: s ≠ Text.Numeral.write n := by
  intro same
  have mem : '-' ∈ Nat.toDigits 10 n := by
    rw [← Text.Numeral.write, ← same]
    exact List.mem_cons_self
  exact absurd (Nat.isDigit_of_mem_toDigits (by decide) (by decide) mem) (by decide)

theorem intText_inj {m n : Int} : Value.intText m = Value.intText n ↔ m = n := by
  refine ⟨?_, congrArg _⟩
  unfold Value.intText
  split <;> split <;> intro same
  · have digits := Text.Numeral.write_inj.mp (List.cons.inj same).2
    omega
  · exact absurd same (minus_cons_ne _ _)
  · exact absurd same.symm (minus_cons_ne _ _)
  · have digits := Text.Numeral.write_inj.mp same
    omega

def scaledText (unit n : Int) : List Char :=
  if n % unit = 0 then Value.intText (n / unit) else Value.intText n ++ ['e']

theorem scaledText_inj {unit m n : Int} : scaledText unit m = scaledText unit n ↔ m = n := by
  have unmarked (k : Int) (s : List Char) : Value.intText k ≠ s ++ ['e'] := by
    intro same
    have marked : 'e' ∈ Value.intText k := by rw [same]; exact List.mem_append_right s List.mem_cons_self
    exact (isNumeral_intText k 'e' marked).2 rfl
  refine ⟨?_, congrArg _⟩
  unfold scaledText
  split <;> split <;> intro same
  · rename_i whole whole'
    rw [← Int.ediv_mul_cancel_of_emod_eq_zero whole, ← Int.ediv_mul_cancel_of_emod_eq_zero whole',
      intText_inj.mp same]
  · exact absurd same (unmarked _ _)
  · exact absurd same.symm (unmarked _ _)
  · exact intText_inj.mp (List.append_cancel_right same)

def sampleWrite (x : Double) : List Char := scaledText (Int.pow 2 1074) (x.rank?.getD 0)

theorem sampleWrite_writes : Datum.Writes sampleWrite where
  nonempty x _ := by
    unfold sampleWrite scaledText Value.intText
    split
    · split
      · exact List.cons_ne_nil _ _
      · exact Nat.toDigits_ne_nil
    · exact List.append_ne_nil_of_right_ne_nil _ (List.cons_ne_nil _ _)
  numerals x _ c mem := by
    unfold sampleWrite scaledText at mem
    split at mem
    · exact (isNumeral_intText _ c mem).1
    · rcases List.mem_append.mp mem with digit | mark
      · exact (isNumeral_intText _ c digit).1
      · rw [List.mem_singleton.mp mark]
        decide
  tells x y finite finite' := by
    obtain ⟨m, rank⟩ : ∃ m, x.rank? = some m := by
      cases x with
      | finite => exact ⟨_, rfl⟩
      | infinite | nan => cases finite
    obtain ⟨n, rank'⟩ : ∃ n, y.rank? = some n := by
      cases y with
      | finite => exact ⟨_, rfl⟩
      | infinite | nan => cases finite'
    have compared : x.compare? y = some (compare m n) := by simp [Double.compare?, rank, rank']
    rw [sampleWrite, sampleWrite, scaledText_inj, compared, rank, rank', Option.some.injEq, compare_eq_iff_eq]
    exact Iff.rfl

def sampleConditions : List SignCondition :=
  [⟨.and, .gt, .int 5⟩, ⟨.and, .ne, .list [.null]⟩, ⟨.or, .eq, .str "seven"⟩]

theorem sampleConditions_signed :
    run sampleWrite "checkSignCondition"
        [(Value.int 7).datum, (Value.list (sampleConditions.map SignCondition.write)).datum] =
      some (.bool true) := by
  have agree : ∀ c ∈ sampleConditions, c.value.datum.finite ∧ Agrees c.comparison (.int 7) c.value :=
    List.forall_mem_cons.mpr ⟨⟨by decide, trivial⟩, List.forall_mem_cons.mpr ⟨⟨rfl, trivial⟩,
      List.forall_mem_cons.mpr ⟨⟨rfl, trivial⟩, nofun⟩⟩⟩
  have signed : SignCondition.signs sampleConditions (Value.int 7).arranged := by decide +kernel
  rw [(signatures_agree_iff sampleWrite_writes (.int 7) (by decide)).2.2 sampleConditions agree, signed]

def DecidesOtherwise (document : Value) (condition : SignCondition) : Prop :=
  run sampleWrite "compare"
      [document.datum, .string condition.comparison.symbol, condition.value.datum] =
    some (.bool !condition.holds document.arranged) ∧
  run sampleWrite "checkSignCondition"
      [document.datum, (Value.list ([condition].map SignCondition.write)).datum] =
    some (.bool !SignCondition.signs [condition] document.arranged)

theorem decidesOtherwise_iff (document : Value) (condition : SignCondition) :
    DecidesOtherwise document condition ↔
      document.datum.relates sampleWrite condition.value.datum condition.comparison =
        !condition.holds document.arranged := by
  rw [DecidesOtherwise, Helper.run_compare, Helper.run_checkSignCondition, foldl_join_singleton,
    signs_singleton, and_self_iff, Option.some.injEq, Datum.bool.injEq]

theorem sampleDocuments_decided_otherwise :
    DecidesOtherwise .null ⟨.and, .le, .null⟩ ∧
      DecidesOtherwise (.map [("b", .int 1), ("a", .int 2)])
        ⟨.and, .eq, .map [("a", .int 2), ("b", .int 1)]⟩ ∧
      DecidesOtherwise (.str (String.ofList [Char.ofNat 0x1F600]))
        ⟨.and, .lt, .str (String.ofList [Char.ofNat 0xFF5E])⟩ ∧
      DecidesOtherwise (.list [.int 1]) ⟨.and, .eq, .list [.float (.ofInt 1)]⟩ := by
  simp only [decidesOtherwise_iff]
  decide +kernel

end Script
end Tripwire
