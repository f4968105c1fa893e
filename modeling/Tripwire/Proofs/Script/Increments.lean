import Mathlib.Data.List.Forall2
import Tripwire.Proofs.Script.Representation
import Tripwire.Script.Render

/-!
# Compiling step by step

A script only grows, and how it grows does not depend on the order in which the actions are given. So it
makes no difference whether actions are compiled at once or in several steps.
-/
namespace Tripwire.Script

variable {as bs actions : List Action} {a : Action} {prev s s' : Script} {c : Compiled}
variable {fresh fresh' : List (Action × Routine)}

theorem map_priority_sortActions (same : as.Perm bs) :
    (sortActions as).map Action.priority = (sortActions bs).map Action.priority := by
  have sorted (actions : List Action) :
      ((sortActions actions).map Action.priority).Pairwise (· ≤ ·) :=
    List.pairwise_map.mpr (ascending_sortActions actions)
  have permuted := (sortActions_perm as).trans (same.trans (sortActions_perm bs).symm)
  exact List.Perm.eq_of_pairwise (fun _ _ _ _ => Nat.le_antisymm) (sorted as) (sorted bs)
    (permuted.map Action.priority)

theorem sortActions_congr (same : as.Perm bs) (distinct : Distinct as) :
    sortActions as = sortActions bs :=
  sortActions_eq distinct (ascending_sortActions bs) (same.trans (sortActions_perm bs).symm)

/-- The order in which actions are given makes no difference, not even to which fault is found. -/
theorem compile_perm (prev : Script) (same : as.Perm bs) : prev.compile as = prev.compile bs := by
  unfold compile
  dsimp only
  rw [sharedPriority?_congr (map_priority_sortActions same)]
  split
  case h_1 => rfl
  case h_2 unshared =>
    have distinct := (sharedPriority?_eq_none_iff (ascending_sortActions bs)).mp unshared
    have distinct := distinct.perm ((sortActions_perm bs).trans same.symm)
    rw [sortActions_congr same distinct]

theorem sampleScript_perm :
    empty.compile [samplePrice, sampleReport] = .ok ⟨sampleScript, ["fetch2", "custom7"]⟩ := by
  rw [compile_perm empty (.swap sampleReport samplePrice [])]
  exact compile_sampleScript

abbrev Below (as bs : List Action) : Prop := ∀ a ∈ as, ∀ b ∈ bs, a.priority < b.priority

theorem Below.sorted (below : Below as bs) : Below (sortActions as) (sortActions bs) := by
  intro a mem b mem'
  exact below a ((sortActions_perm as).mem_iff.mp mem) b ((sortActions_perm bs).mem_iff.mp mem')

theorem distinct_append_iff (below : Below as bs) :
    Distinct (as ++ bs) ↔ Distinct as ∧ Distinct bs := by
  rw [Distinct, List.map_append, List.nodup_append]
  have apart : ∀ p ∈ as.map Action.priority, ∀ q ∈ bs.map Action.priority, p ≠ q := by
    simp only [List.forall_mem_map]
    intro a mem b mem'
    exact Nat.ne_of_lt (below a mem b mem')
  constructor
  · rintro ⟨left, right, -⟩
    exact ⟨left, right⟩
  · rintro ⟨left, right⟩
    exact ⟨left, right, apart⟩

theorem sortActions_append (below : Below as bs) (distinct : Distinct (as ++ bs)) :
    sortActions (as ++ bs) = sortActions as ++ sortActions bs := by
  have ascending : Ascending (sortActions as ++ sortActions bs) := by
    refine List.pairwise_append.mpr ⟨ascending_sortActions as, ascending_sortActions bs, ?_⟩
    intro a mem b mem'
    exact Nat.le_of_lt (below.sorted a mem b mem')
  have permuted := (sortActions_perm as).append (sortActions_perm bs)
  exact sortActions_eq distinct ascending permuted.symm

theorem brings_append_iff :
    Brings s (as ++ bs) fresh ↔ ∃ early late, Brings s as early ∧ Brings s bs late ∧
      fresh = early ++ late := by
  constructor
  · rintro ⟨known, new, made⟩
    rw [List.filter_append] at new
    obtain ⟨early, late, rfl, first, second⟩ := List.map_eq_append_iff.mp new
    obtain ⟨known, known'⟩ := List.forall_mem_append.mp known
    obtain ⟨made, made'⟩ := List.forall_mem_append.mp made
    exact ⟨early, late, ⟨known, first, made⟩, ⟨known', second, made'⟩, rfl⟩
  · rintro ⟨early, late, ⟨known, new, made⟩, ⟨known', new', made'⟩, rfl⟩
    refine ⟨List.forall_mem_append.mpr ⟨known, known'⟩, ?_, List.forall_mem_append.mpr ⟨made, made'⟩⟩
    rw [List.map_append, List.filter_append, new, new']

theorem Brings.congr (same : ∀ a ∈ actions, s.routineAt? a.priority = s'.routineAt? a.priority)
    (brings : Brings s actions fresh) : Brings s' actions fresh := by
  refine ⟨fun a mem old found => brings.known a mem old ((same a mem).trans found), ?_, brings.made⟩
  rw [brings.new]
  apply List.filter_congr
  intro a mem
  rw [same a mem]

theorem routineAt?_extend_of_some {priority : Nat} {old : Routine}
    (found : s.routineAt? priority = some old) : (s.extend fresh).routineAt? priority = some old := by
  rw [routineAt?, routines_extend, List.find?_append]
  rw [routineAt?] at found
  rw [found, Option.some_or]

theorem Brings.routineAt?_extend (brings : Brings s as fresh) (below : Below as bs) :
    ∀ b ∈ bs, s.routineAt? b.priority = (s.extend fresh).routineAt? b.priority := by
  intro b mem
  have absent : (fresh.map Prod.snd).find? (fun r => r.priority = b.priority) = none := by
    rw [List.find?_eq_none]
    intro r brought same
    obtain ⟨entry, new, rfl⟩ := List.mem_map.mp brought
    have lower := below entry.1 (brings.mem new).1 b mem
    rw [← (ofAction_eq_ok (brings.made entry new)).2.2.1] at lower
    exact Nat.ne_of_lt lower (of_decide_eq_true same)
  rw [routineAt?, routineAt?, routines_extend, List.find?_append, absent, Option.or_none]

theorem Brings.found (brings : Brings s actions fresh) (distinct : Distinct actions)
    (mem : a ∈ actions) :
    ∃ r, (s.extend fresh).routineAt? a.priority = some r ∧ r.name = a.unitName := by
  cases found : s.routineAt? a.priority with
  | some old => exact ⟨old, routineAt?_extend_of_some found, brings.known a mem old found⟩
  | none =>
      have brought : a ∈ fresh.map Prod.fst := by
        rw [brings.new]
        exact List.mem_filter.mpr ⟨mem, by simp [found]⟩
      obtain ⟨entry, new, rfl⟩ := List.mem_map.mp brought
      have present : ((fresh.map Prod.snd).find? fun r => r.priority = entry.1.priority).isSome := by
        rw [List.find?_isSome]
        have priority := (ofAction_eq_ok (brings.made entry new)).2.2.1
        exact ⟨entry.2, List.mem_map_of_mem new, decide_eq_true priority⟩
      obtain ⟨r, first⟩ := Option.isSome_iff_exists.mp present
      refine ⟨r, ?_, ?_⟩
      · rw [routineAt?] at found
        rw [routineAt?, routines_extend, List.find?_append, found, Option.none_or, first]
      -- Of the actions only one has this priority.
      · obtain ⟨other, new', rfl⟩ := List.mem_map.mp (List.mem_of_find?_eq_some first)
        obtain ⟨name, -, priority, -⟩ := ofAction_eq_ok (brings.made other new')
        have same : other.2.priority = entry.1.priority := by simpa using List.find?_some first
        rw [priority] at same
        rw [name, distinct.eq_of_mem (brings.mem new').1 mem same]

theorem Brings.settled (brings : Brings s actions fresh) (distinct : Distinct actions) :
    Brings (s.extend fresh) actions [] := by
  refine ⟨?_, ?_, by simp⟩
  · intro a mem old found
    obtain ⟨r, found', named⟩ := brings.found distinct mem
    rw [found, Option.some.injEq] at found'
    rwa [found']
  · symm
    rw [List.map_nil, List.filter_eq_nil_iff]
    intro a mem
    obtain ⟨r, found, -⟩ := brings.found distinct mem
    simp [found]

theorem withDriver_extend_withDriver :
    (s.withDriver.extend fresh).withDriver = (s.extend fresh).withDriver := by
  simp [withDriver]

theorem brings_withDriver_iff : Brings s.withDriver actions fresh ↔ Brings s actions fresh :=
  ⟨fun brings => ⟨brings.known, brings.new, brings.made⟩,
    fun brings => ⟨brings.known, brings.new, brings.made⟩⟩

theorem compile_compiled (compiled : prev.compile actions = .ok c) :
    c.script.compile actions = .ok ⟨c.script, []⟩ := by
  obtain ⟨distinct, fresh, brings, rfl⟩ := compile_eq_ok_iff.mp compiled
  have settled := brings.settled (distinct.perm (sortActions_perm actions).symm)
  exact compile_eq_ok_iff.mpr ⟨distinct, [], brings_withDriver_iff.mpr settled, rfl⟩

theorem compile_append_eq_ok_iff (below : Below as bs) :
    prev.compile (as ++ bs) = .ok c ↔ ∃ c₁ c₂, prev.compile as = .ok c₁ ∧
      c₁.script.compile bs = .ok c₂ ∧ c = ⟨c₂.script, c₁.added ++ c₂.added⟩ := by
  constructor
  · intro compiled
    obtain ⟨distinct, fresh, brings, rfl⟩ := compile_eq_ok_iff.mp compiled
    rw [sortActions_append below distinct] at brings
    obtain ⟨early, late, first, second, rfl⟩ := brings_append_iff.mp brings
    obtain ⟨left, right⟩ := (distinct_append_iff below).mp distinct
    have second := second.congr (first.routineAt?_extend below.sorted)
    refine ⟨_, _, compile_eq_ok_iff.mpr ⟨left, early, first, rfl⟩,
      compile_eq_ok_iff.mpr ⟨right, late, brings_withDriver_iff.mpr second, rfl⟩, ?_⟩
    rw [withDriver_extend_withDriver, ← extend_append, List.map_append]
  · rintro ⟨c₁, c₂, compiled, compiled', rfl⟩
    obtain ⟨left, early, first, rfl⟩ := compile_eq_ok_iff.mp compiled
    obtain ⟨right, late, second, rfl⟩ := compile_eq_ok_iff.mp compiled'
    have same := first.routineAt?_extend below.sorted
    have second := (brings_withDriver_iff.mp second).congr fun b mem => (same b mem).symm
    have distinct := (distinct_append_iff below).mpr ⟨left, right⟩
    refine compile_eq_ok_iff.mpr ⟨distinct, early ++ late, ?_, ?_⟩
    · rw [sortActions_append below distinct]
      exact brings_append_iff.mpr ⟨early, late, first, second, rfl⟩
    · rw [withDriver_extend_withDriver, ← extend_append, List.map_append]

/-- Compiling what was compiled changes nothing, and compiling in steps comes to the same as compiling at
once. -/
theorem compile_in_steps (prev : Script) (as bs : List Action) :
    (∀ c, prev.compile as = .ok c → c.script.compile as = .ok ⟨c.script, []⟩) ∧
      (Below as bs → ∀ c, prev.compile (as ++ bs) = .ok c ↔ ∃ c₁ c₂, prev.compile as = .ok c₁ ∧
        c₁.script.compile bs = .ok c₂ ∧ c = ⟨c₂.script, c₁.added ++ c₂.added⟩) := by
  constructor
  · intro c compiled
    exact compile_compiled compiled
  · intro below c
    exact compile_append_eq_ok_iff below

theorem sampleGrown_in_steps :
    sampleGrown.compile [sampleRate, samplePrice] = .ok ⟨sampleGrown, []⟩ ∧
      sampleScript.compile [sampleRate, samplePrice, sampleReport] =
        .ok ⟨sampleGrown, ["fetch4"]⟩ := by
  have settled : sampleGrown.compile [sampleReport] = .ok ⟨sampleGrown, []⟩ := by
    have sorted : sortActions [sampleReport] = [sampleReport] :=
      sortActions_eq (by decide) (by decide) (.refl _)
    rw [compile, sorted]
    decide +kernel
  obtain ⟨again, steps⟩ := compile_in_steps sampleScript [sampleRate, samplePrice] [sampleReport]
  have below : Below [sampleRate, samplePrice] [sampleReport] := by decide
  refine ⟨again _ compile_sampleGrown, ?_⟩
  exact (steps below _).mpr ⟨_, _, compile_sampleGrown, settled, rfl⟩

theorem lookup_addKeys {name : String} {keys : List (String × String)}
    (others : ∀ entry ∈ fresh, name ≠ entry.1.unitName) :
    (fresh.foldl (fun keys entry => addKey keys entry.1) keys).lookup name = keys.lookup name := by
  induction fresh generalizing keys with
  | nil => rfl
  | cons entry fresh ih =>
      obtain ⟨other, others⟩ := List.forall_mem_cons.mp others
      rw [List.foldl_cons, ih others]
      unfold addKey
      split
      · split
        · exact lookup_insertKey_of_ne other
        · rfl
      · rfl

theorem Reachable.lookup_extend (reachable : Reachable prev) (brings : Brings prev actions fresh)
    {name key : String} (found : prev.apiKeys.lookup name = some key) :
    (prev.extend fresh).apiKeys.lookup name = some key := by
  have consistent := reachable.wellFormed.toConsistent
  rw [apiKeys_extend, lookup_addKeys, found]
  rintro entry mem rfl
  apply consistent.fresh_key (routineAt?_eq_none_iff.mp (brings.mem mem).2)
  obtain ⟨before, after, same, -⟩ := List.lookup_eq_some_iff.mp found
  simp [same]

theorem Brings.pairwise_priority (brings : Brings s actions fresh) (distinct : Distinct actions)
    (ascending : Ascending actions) :
    (fresh.map Prod.snd).Pairwise fun r r' => r.priority < r'.priority := by
  have lower := (distinct.pairwise_lt ascending).sublist
    (List.filter_sublist (p := fun a => (s.routineAt? a.priority).isNone))
  rw [← brings.new] at lower
  have lower := List.pairwise_map.mpr lower
  rw [← brings.priorities] at lower
  exact List.pairwise_map.mp lower

theorem Reachable.extend_eq_iff (reachable : Reachable prev) :
    (prev.extend fresh).withDriver = prev ↔ fresh = [] := by
  constructor
  · intro same
    have routines := congrArg Script.routines same
    rw [withDriver, routines_extend] at routines
    exact List.map_eq_nil_iff.mp (List.append_cancel_left (routines.trans (List.append_nil _).symm))
  · rintro rfl
    rw [extend, List.foldl_nil, withDriver, ← reachable.wellFormed.driven]

theorem intercalate_text (routines : List Routine) (driver : List Char) :
    routines.flatMap (fun r => '\n' :: r.text) ++ '\n' :: driver =
      '\n' :: ['\n'].intercalate (routines.map Routine.text ++ [driver]) := by
  induction routines with
  | nil => simp
  | cons r routines ih =>
      have nonempty : routines.map Routine.text ++ [driver] ≠ [] := by simp
      obtain ⟨next, rest, same⟩ := List.exists_cons_of_ne_nil nonempty
      have texts : (r :: routines).map Routine.text ++ [driver] = r.text :: next :: rest := by
        rw [← same, List.map_cons, List.cons_append]
      rw [List.flatMap_cons, List.append_assoc, ih, texts, List.intercalate_cons_cons, same]
      simp

/-- The part of a script's text that stays when the script grows. -/
def lasting (s : Script) : List Char :=
  prelude ++ s.routines.flatMap (fun r => '\n' :: r.text) ++ ['\n']

theorem chars_eq (s : Script) : s.chars = s.lasting ++ driverText s.driver := by
  simp [chars, lasting]

theorem chars_of_routines {new : List Routine} (grown : s'.routines = s.routines ++ new) :
    s'.chars = s.lasting ++ ['\n'].intercalate (new.map Routine.text ++ [driverText s'.driver]) := by
  rw [chars, grown, List.flatMap_append, List.append_assoc, List.append_assoc, intercalate_text]
  simp [lasting]

theorem compile_appends (reachable : Reachable prev) (compiled : prev.compile actions = .ok c) :
    ∃ (fresh : List Action) (new : List Routine),
      c.script.routines = prev.routines ++ new ∧
      fresh.Perm (actions.filter fun a => a.priority ∉ prev.routines.map Routine.priority) ∧
      List.Forall₂ (fun a r => Routine.ofAction a = .ok r) fresh new ∧
      new.Pairwise (fun r r' => r.priority < r'.priority) ∧
      c.added = new.map Routine.name ∧
      (∀ name key, prev.apiKeys.lookup name = some key → c.script.apiKeys.lookup name = some key) ∧
      (c.script = prev ↔ c.added = []) ∧
      ∃ base, prev.render.toList = base ++ driverText prev.driver ∧
        c.script.render.toList =
          base ++ ['\n'].intercalate (new.map Routine.text ++ [driverText c.script.driver]) := by
  obtain ⟨distinct, fresh, brings, rfl⟩ := compile_eq_ok_iff.mp compiled
  have distinct := distinct.perm (sortActions_perm actions).symm
  have routines : ((prev.extend fresh).withDriver).routines = prev.routines ++ fresh.map Prod.snd :=
    routines_extend
  refine ⟨fresh.map Prod.fst, fresh.map Prod.snd, routines, ?_, ?_,
    brings.pairwise_priority distinct (ascending_sortActions actions), ?_, ?_, ?_,
    prev.lasting, ?_, ?_⟩
  · rw [brings.new]
    have sorted := (sortActions_perm actions).filter fun a => (prev.routineAt? a.priority).isNone
    refine sorted.trans (.of_eq (List.filter_congr ?_))
    intro a mem
    rw [Bool.eq_iff_iff, Option.isNone_iff_eq_none, decide_eq_true_iff, routineAt?_eq_none_iff]
  · rw [List.forall₂_map_left_iff, List.forall₂_map_right_iff, List.forall₂_same]
    exact brings.made
  · rw [List.map_map]
    rfl
  · intro name key found
    exact reachable.lookup_extend brings found
  · rw [reachable.extend_eq_iff, List.map_eq_nil_iff]
  · rw [render, String.toList_ofList, chars_eq]
  · rw [render, String.toList_ofList, chars_of_routines routines]

theorem sampleGrown_appends : ∃ new, sampleGrown.routines = sampleScript.routines ++ new ∧
    new.map Routine.name = ["fetch4"] := by
  obtain ⟨_, new, grown, -, -, -, added, -⟩ :=
    compile_appends reachable_sampleScript compile_sampleGrown
  exact ⟨new, grown, added.symm⟩

end Tripwire.Script
