import Mathlib.Data.List.TakeWhile
import Tripwire.Config.Load
import Tripwire.Proofs.Contract.TypeName

/-!
# Where a daemon listens

A bind text has a host and a port, which are parted by its last colon, so the host may have colons itself. The
host is taken even if what stands for the port is none, and the port of the configuration is then left beside
a host that it was not meant for. Otherwise a text is taken whole or not at all.
-/
namespace Tripwire

namespace Contract

theorem numeral_write (n : Nat) : Numeral 10 (Text.Numeral.write n) n := by
  have digit {c : Char} (mem : c ∈ Text.Numeral.write n) : Text.Numeral.digit? c = some (c.toNat - '0'.toNat) := by
    have digit := Nat.isDigit_of_mem_toDigits (by decide) (by decide) mem
    rw [Char.isDigit, Bool.and_eq_true, decide_eq_true_eq, decide_eq_true_eq] at digit
    exact if_pos digit
  refine ⟨(Text.Numeral.write n).map fun c => c.toNat - '0'.toNat, ?_, ?_, ?_⟩
  · intro d mem
    obtain ⟨c, among, rfl⟩ := List.mem_map.mp mem
    exact (decimalDigit?_eq_some_iff.mp (digit among)).1
  · rw [List.map_map]
    exact List.map_congr_left fun c among => (decimalDigit?_eq_some_iff.mp (digit among)).2
  · rw [List.foldl_map]
    exact Nat.ofDigitChars_ten_toDigits

theorem width_write (n : Nat) : Width (Text.Numeral.write n) n :=
  .plain Nat.toDigits_ne_nil (numeral_write n)

end Contract

namespace Config

variable {c : Config} {bind host host' port port' : String} {n : Nat}

section
variable {mark : Char} {before after text : List Char}

theorem splitLast?_append (last : mark ∉ after) :
    splitLast? mark (before ++ mark :: after) = some (before, after) := by
  have others : ∀ other ∈ after.reverse, decide (other ≠ mark) = true := by
    intro other mem
    apply decide_eq_true
    rintro rfl
    exact last (List.mem_reverse.mp mem)
  have reversed : (before ++ mark :: after).reverse = after.reverse ++ mark :: before.reverse := by simp
  rw [splitLast?, reversed, List.dropWhile_append_of_pos others, List.takeWhile_append_of_pos others]
  simp

theorem splitLast?_of_not_mem (none : mark ∉ text) : splitLast? mark text = .none := by
  have all : text.reverse.dropWhile (· ≠ mark) = [] := by
    rw [List.dropWhile_eq_nil_iff]
    intro other mem
    apply decide_eq_true
    rintro rfl
    exact none (List.mem_reverse.mp mem)
  rw [splitLast?, all]

end

structure Parts (bind host port : String) : Prop where
  text : bind = host ++ ":" ++ port
  last : ':' ∉ port.toList

namespace Parts

theorem toList (parts : Parts bind host port) : bind.toList = host.toList ++ ':' :: port.toList := by
  simp [parts.text]

theorem split (parts : Parts bind host port) :
    splitLast? ':' bind.toList = some (host.toList, port.toList) := by
  rw [parts.toList, splitLast?_append parts.last]

theorem unique (parts : Parts bind host port) (parts' : Parts bind host' port') :
    host = host' ∧ port = port' := by
  have same := parts.split.symm.trans parts'.split
  rw [Option.some.injEq, Prod.mk.injEq] at same
  exact ⟨String.toList_inj.mp same.1, String.toList_inj.mp same.2⟩

end Parts

theorem exists_parts (marked : ':' ∈ bind.toList) : ∃ host port, Parts bind host port := by
  obtain ⟨after, before, same, last⟩ := List.eq_append_cons_of_mem (List.mem_reverse.mpr marked)
  refine ⟨String.ofList before.reverse, String.ofList after.reverse, ?_, by simpa using last⟩
  rw [← String.toList_inj, ← List.reverse_inj, same]
  simp

/-- A port as it may be written: in decimal digits, perhaps with zeros or a plus before them. -/
def IsPort (port : String) (n : Nat) : Prop := Contract.Width port.toList n ∧ n < 65536

def Whole (c : Config) (bind host : String) (n : Nat) : Prop :=
  host = c.host ∧ n = c.port ∨ ∃ port, Parts bind host port ∧ IsPort port n

theorem read_eq_ok_iff : Text.Numeral.read portLimit port.toList = .ok n ↔ IsPort port n := by
  rw [Contract.readNumeral_eq_ok_iff, IsPort, portLimit]
  exact and_congr_right fun _ => Nat.lt_succ_iff.symm

theorem overrideBind_of_port (parts : Parts bind host port) (read : IsPort port n) :
    c.overrideBind bind = { c with host := host, port := n } := by
  simp [overrideBind, parts.split, read_eq_ok_iff.mpr read, Except.toOption]

theorem overrideBind_of_no_port (parts : Parts bind host port) (unread : ∀ n, ¬IsPort port n) :
    c.overrideBind bind = { c with host := host } := by
  cases read : Text.Numeral.read portLimit port.toList with
  | ok n => exact absurd (read_eq_ok_iff.mp read) (unread n)
  | error fault => simp [overrideBind, parts.split, read, Except.toOption]

theorem overrideBind_of_unmarked (unmarked : ':' ∉ bind.toList) : c.overrideBind bind = c := by
  rw [overrideBind, splitLast?_of_not_mem unmarked]

theorem overrideBind_eq (c : Config) (bind : String) :
    c.overrideBind bind =
      { c with host := (c.overrideBind bind).host, port := (c.overrideBind bind).port } := by
  unfold overrideBind
  cases splitLast? ':' bind.toList <;> rfl

theorem override_eq (c : Config) (env : Environment) (bind : String) :
    c.override { env with bind? := some bind } =
      { c.override { env with bind? := none } with
        host := (c.overrideBind bind).host
        port := (c.overrideBind bind).port } := by
  simp only [override, Option.elim_some, Option.elim_none]
  rw [overrideBind_eq c bind]

theorem parts_write (host : String) (n : Nat) : Parts (host ++ ":" ++ toString n) host (toString n) := by
  refine ⟨rfl, fun mem => ?_⟩
  rw [Nat.toString_eq_ofList_toDigits, String.toList_ofList] at mem
  exact absurd (Nat.isDigit_of_mem_toDigits (by decide) (by decide) mem) (by decide)

theorem isPort_write (most : n ≤ 65535) : IsPort (toString n) n := by
  refine ⟨?_, Nat.lt_succ_of_le most⟩
  rw [Nat.toString_eq_ofList_toDigits, String.toList_ofList]
  exact Contract.width_write n

theorem whole_iff_of_no_port (parts : Parts bind host port) (unread : ∀ n, ¬IsPort port n) :
    Whole c bind host c.port ↔ host = c.host := by
  constructor
  · rintro (⟨own, -⟩ | ⟨port', parts', read⟩)
    · exact own
    · obtain ⟨-, rfl⟩ := parts.unique parts'
      exact absurd read (unread _)
  · intro own
    exact .inl ⟨own, rfl⟩

/-- A bind text is taken whole or not at all, unless it brings another host with something that is no port. Then
the host is its own, and the port is the configuration's. A host and a port that are written as an address are both
taken, and nothing else is. -/
theorem bind_taken_whole_iff (c : Config) (env : Environment) (bind : String) :
    ∃ after, c.override { env with bind? := some bind } = after ∧
      (Whole c bind after.host after.port ↔
        ∀ host port, Parts bind host port → (∀ n, ¬IsPort port n) → host = c.host) ∧
      (∀ host port, Parts bind host port → (∀ n, ¬IsPort port n) →
        after.host = host ∧ after.port = c.port) ∧
      ∀ host n, n ≤ 65535 → bind = host ++ ":" ++ toString n →
        after = { c.override { env with bind? := none } with host := host, port := n } ∧
          after.bindAddress = bind := by
  refine ⟨_, rfl, ?_, ?_, ?_⟩
  · rw [override_eq]
    by_cases marked : ':' ∈ bind.toList
    · obtain ⟨host, port, parts⟩ := exists_parts marked
      -- A text has one last colon, so it is parted in one way.
      have only {P : String → String → Prop} :
          (∀ host port, Parts bind host port → P host port) ↔ P host port := by
        refine ⟨fun all => all host port parts, fun this host' port' parts' => ?_⟩
        obtain ⟨rfl, rfl⟩ := parts.unique parts'
        exact this
      rw [only]
      by_cases read : ∃ n, IsPort port n
      · obtain ⟨n, read⟩ := read
        rw [overrideBind_of_port parts read]
        exact iff_of_true (.inr ⟨port, parts, read⟩) fun unread => absurd read (unread n)
      · have unread : ∀ n, ¬IsPort port n := not_exists.mp read
        rw [overrideBind_of_no_port parts unread, forall_prop_of_true unread]
        exact whole_iff_of_no_port parts unread
    · rw [overrideBind_of_unmarked marked]
      refine iff_of_true (.inl ⟨rfl, rfl⟩) fun host port parts => ?_
      exact absurd (parts.toList ▸ List.mem_append_right _ List.mem_cons_self) marked
  · intro host port parts unread
    rw [override_eq, overrideBind_of_no_port parts unread]
    exact ⟨rfl, rfl⟩
  · intro host n most same
    have taken : c.overrideBind bind = { c with host := host, port := n } :=
      overrideBind_of_port (same ▸ parts_write host n) (isPort_write most)
    rw [override_eq, taken]
    exact ⟨rfl, same.symm⟩

theorem sampleBracketed_whole :
    ∃ after, standard.override ⟨some "[::1]:8080", none, none⟩ = after ∧
      Whole standard "[::1]:8080" after.host after.port ∧
      after = { standard with host := "[::1]", port := 8080 } ∧ after.bindAddress = "[::1]:8080" := by
  obtain ⟨after, same, whole, -, written⟩ :=
    bind_taken_whole_iff standard ⟨none, none, none⟩ "[::1]:8080"
  obtain ⟨taken, address⟩ := written "[::1]" 8080 (by decide) rfl
  refine ⟨after, same, whole.mpr ?_, taken, address⟩
  intro host port parts unread
  obtain ⟨-, rfl⟩ := parts.unique (parts_write "[::1]" 8080)
  exact absurd (isPort_write (by decide)) (unread 8080)

theorem sampleOutOfRange_mixed :
    ∃ after, standard.override ⟨some "127.0.0.1:99999", none, none⟩ = after ∧
      after.host = "127.0.0.1" ∧ standard.host = "0.0.0.0" ∧ after.port = standard.port ∧
      ¬Whole standard "127.0.0.1:99999" after.host after.port := by
  have unread : ∀ n, ¬IsPort (toString 99999) n := by
    intro n found
    have refused : (Text.Numeral.read portLimit (toString 99999).toList).toOption = none := by decide
    rw [read_eq_ok_iff.mpr found] at refused
    cases refused
  have parts : Parts "127.0.0.1:99999" "127.0.0.1" (toString 99999) := parts_write "127.0.0.1" 99999
  have taken : standard.override ⟨some "127.0.0.1:99999", none, none⟩ =
      { standard with host := "127.0.0.1" } := by
    have bind := override_eq standard ⟨none, none, none⟩ "127.0.0.1:99999"
    rw [overrideBind_of_no_port parts unread] at bind
    exact bind
  refine ⟨_, taken, rfl, rfl, rfl, fun whole => ?_⟩
  have own : "127.0.0.1" = "0.0.0.0" := (whole_iff_of_no_port parts unread).mp whole
  exact absurd own (by decide)

end Config
end Tripwire
