import Mathlib.Logic.Function.Iterate
import Tripwire.Proofs.Rehearsal.Tending

namespace Tripwire.Rehearsal

open Circuit (Told)
open Circuit.Process (Course Stage step?_of_step told told_append told_singleton)

/-- What becomes of an observation: it reports, or it is given up while it waits. -/
inductive Fate where
  | reported (observation : Observation)
  | cutOff
  | abandoned
  deriving DecidableEq, Repr

namespace Fate

def told (name : String) : Fate → List Told
  | .reported .holds => [.matched, .ended none]
  | .reported .holdsNot => [.unmatched, .ended none]
  | .reported .nothing => [.ended none]
  | .reported .failure => [.ended (some (name ++ " failed to observe"))]
  | .cutOff => [.cutOff]
  | .abandoned => [.abandoned]

def reported? : Fate → Option Observation
  | .reported observation => some observation
  | .cutOff | .abandoned => none

end Fate

namespace Pattern

variable {p q r : Pattern} {fates later : List Fate}

theorem iterate_advance (p : Pattern) (n : Nat) :
    advance^[n] p = { p with cursor := if p.observations.isEmpty then p.cursor else p.cursor + n } := by
  induction n with
  | zero => simp
  | succ n ih =>
      rw [Function.iterate_succ_apply', ih, advance]
      by_cases empty : p.observations.isEmpty
      · simp [empty]
      · simp [empty, Nat.add_assoc]

theorem current_iterate (p : Pattern) (n : Nat) :
    (advance^[n] p).current =
      (p.observations[(p.cursor + n) % p.observations.length]?).getD .nothing := by
  rw [iterate_advance, current]
  by_cases empty : p.observations.isEmpty
  · simp [List.isEmpty_iff.mp empty]
  · simp [empty]

theorem watch_succ (p : Pattern) (n : Nat) : p.watch (n + 1) = p.watch n ++ [(advance^[n] p).current] := by
  induction n generalizing p with
  | zero => rfl
  | succ n ih => rw [watch, ih, watch, Function.iterate_succ_apply, List.cons_append]

theorem watch_eq (p : Pattern) (n : Nat) : p.watch n =
    (List.range n).map fun k => (p.observations[(p.cursor + k) % p.observations.length]?).getD .nothing := by
  induction n with
  | zero => rfl
  | succ n ih => rw [watch_succ, ih, List.range_succ, List.map_append, current_iterate]; rfl

inductive Passes (p : Pattern) : List Fate → Pattern → Prop where
  | nil : Passes p [] p
  | report {fates : List Fate} {q : Pattern} (passes : Passes p fates q) :
      Passes p (fates ++ [.reported q.current]) q.advance
  | cancel {fates : List Fate} {q : Pattern} {fate : Fate} (passes : Passes p fates q)
      (slow : p.latencyMillis ≠ 0) (unreported : fate.reported? = none) : Passes p (fates ++ [fate]) q

namespace Passes

theorem spec (passes : Passes p fates q) : ∃ n, q = advance^[n] p ∧ fates.filterMap Fate.reported? = p.watch n ∧
    (p.latencyMillis = 0 → ∀ fate ∈ fates, fate.reported?.isSome) := by
  -- The number is that of the reports, since nothing else uses up an entry.
  induction passes with
  | nil => exact ⟨0, rfl, rfl, fun _ => nofun⟩
  | report passes ih =>
      obtain ⟨n, rfl, reported, quick⟩ := ih
      refine ⟨n + 1, (Function.iterate_succ_apply' ..).symm, ?_, ?_⟩
      · rw [List.filterMap_append, reported, watch_succ]
        rfl
      · intro latency
        rw [List.forall_mem_append, List.forall_mem_singleton]
        exact ⟨quick latency, rfl⟩
  | cancel passes slow unreported ih =>
      obtain ⟨n, rfl, reported, quick⟩ := ih
      refine ⟨n, rfl, ?_, fun latency => absurd latency slow⟩
      rw [List.filterMap_append, reported, List.filterMap_cons_none unreported, List.filterMap_nil,
        List.append_nil]

theorem same (passes : Passes p fates q) : q.name = p.name ∧ q.latencyMillis = p.latencyMillis := by
  obtain ⟨n, rfl, -⟩ := passes.spec
  rw [iterate_advance]
  exact ⟨rfl, rfl⟩

theorem trans (left : Passes p fates q) (right : Passes q later r) : Passes p (fates ++ later) r := by
  induction right with
  | nil => simpa using left
  | report _ ih => simpa [← List.append_assoc] using Passes.report ih
  | cancel _ slow unreported ih =>
      have slow := left.same.2 ▸ slow
      simpa [← List.append_assoc] using Passes.cancel ih slow unreported

end Passes
end Pattern

namespace Bench

variable {b b' : Bench} {o : Open} {event : Circuit.Event} {p : Pattern} {q : Circuit.Process}

def others (b : Bench) (o : Open) : List Open := b.opened.filter (·.index ≠ o.index)

structure Ends (b : Bench) (o : Open) (calls : List Told) (b' : Bench) : Prop where
  tended : Tended { b' with opened := b.others o }
  watchers : b'.watchers = b.watchers
  course : ∃ stages, Course b.process stages b'.process ∧
    ∀ key, told key stages = if o.key = key then calls else []

theorem step?_cycling {cycle : Circuit.Cycle} (cycling : b.process.progress = .cycling cycle)
    (step : Circuit.Process.Step now ⟨b.circuit, .cycling cycle⟩ event q) :
    b.process.step? now event = some q := by
  rw [← cycling] at step
  exact step?_of_step step

theorem exists_settled (tended : Tended b) (opened : o ∈ b.opened) (error? : Option String) :
    ∃ q, b.process.step? now (.settled o.index error?) = some q := by
  obtain ⟨cycle, cycling, observes⟩ := tended.exists_observing opened
  cases error? with
  | none => exact ⟨_, step?_cycling cycling (.release (.settled observes))⟩
  | some error =>
      have observed := List.find?_isSome.mpr (List.any_eq_true.mp observes)
      obtain ⟨x, found⟩ := Option.isSome_iff_exists.mp observed
      exact ⟨_, step?_cycling cycling (.release (.failed error found))⟩

theorem ends_settled (tended : Tended b) (opened : o ∈ b.opened) (error? : Option String) :
    Ends b o [.ended error?] (b.happen (.settled o.index error?)) := by
  obtain ⟨q, taken⟩ := exists_settled tended opened error?
  rw [happen_of_taken taken]
  refine ⟨tended.close taken rfl nofun nofun, rfl, _, .single taken, ?_⟩
  intro key
  rw [told_singleton]
  exact tended.told_of_open opened (fun _ => rfl) key

theorem ends_cutOff (tended : Tended b) (opened : o ∈ b.opened) (past : b.pastDeadline = true) :
    Ends b o [.cutOff] (b.happen (.cutOff o.index)) := by
  obtain ⟨cycle, cycling, observes⟩ := tended.exists_observing opened
  have due : b.deadline?.isSome := by
    cases deadline : b.deadline? with
    | none => simp [pastDeadline, deadline] at past
    | some _ => rfl
  have limited := tended.limited (List.ne_nil_of_mem opened) due
  rw [Circuit.Process.limit?, cycling] at limited
  obtain ⟨limit, bounded⟩ := Option.isSome_iff_exists.mp limited
  have taken := step?_cycling cycling (.release (.cutOff bounded observes))
  rw [happen_of_taken taken]
  refine ⟨tended.close taken rfl nofun nofun, rfl, _, .single taken, ?_⟩
  intro key
  rw [told_singleton]
  exact tended.told_of_open opened (fun _ => rfl) key

theorem Ends.after (tended : Tended b) (opened : o ∈ b.opened) {call : Told} {calls : List Told}
    (tells : ∀ index, event.told? index = if index = o.index then some call else none)
    (taken : b.process.step? now event = some q) (ends : Ends { b with process := q } o calls b') :
    Ends b o (call :: calls) b' := by
  obtain ⟨stages, course, told⟩ := ends.course
  refine ⟨ends.tended, ends.watchers, _, (Course.single taken).trans course, ?_⟩
  intro key
  rw [told_append, told, told_singleton, tended.told_of_open opened tells]
  split <;> rfl

theorem exists_call (tended : Tended b) (opened : o ∈ b.opened)
    (call : event = .matched o.index ∨ event = .unmatched o.index) :
    ∃ q, b.process.step? now event = some q ∧ Tended { b with process := q } := by
  obtain ⟨cycle, cycling, observes⟩ := tended.exists_observing opened
  rcases call with rfl | rfl
  · have taken := step?_cycling cycling (.report observes .matched)
    exact ⟨_, taken, happen_of_taken taken ▸ tended.happen nofun nofun rfl⟩
  · have taken := step?_cycling cycling (.report observes .unmatched)
    exact ⟨_, taken, happen_of_taken taken ▸ tended.happen nofun nofun rfl⟩

theorem ends_call (tended : Tended b) (opened : o ∈ b.opened) {call : Told}
    (calls : event = .matched o.index ∨ event = .unmatched o.index)
    (tells : ∀ index, event.told? index = if index = o.index then some call else none) :
    Ends b o [call, .ended none] ((b.happen event).happen (.settled o.index none)) := by
  obtain ⟨q, taken, tended'⟩ := exists_call tended opened calls
  rw [happen_of_taken taken]
  exact (ends_settled tended' opened none).after tended opened tells taken

def noting (b : Bench) (key : Nat) (state : WatcherState) : Bench :=
  { b with watchers := b.watchers.setIfInBounds key state }

theorem size_noting (b : Bench) (key : Nat) (state : WatcherState) :
    b.watchers.size ≤ (b.noting key state).watchers.size :=
  Nat.le_of_eq Array.size_setIfInBounds.symm

theorem pattern?_noting {key : Nat} {state : WatcherState} (within : key < b.watchers.size) (key' : Nat) :
    (b.noting key state).pattern? key' = if key = key' then state.pattern? else b.pattern? key' := by
  unfold pattern? noting
  rw [Array.getElem?_setIfInBounds, if_pos within]
  by_cases same : key = key'
  · rw [if_pos same, if_pos same, Option.bind_some]
  · rw [if_neg same, if_neg same]

theorem ends_report (tended : Tended (b.noting o.key (.pattern p.advance))) (opened : o ∈ b.opened) :
    Ends (b.noting o.key (.pattern p.advance)) o ((Fate.reported p.current).told p.name)
      (b.report o.index o.key p) := by
  unfold report
  simp only
  cases p.current with
  | holds => exact ends_call tended opened (.inl rfl) fun _ => rfl
  | holdsNot => exact ends_call tended opened (.inr rfl) fun _ => rfl
  | nothing => exact ends_settled tended opened none
  | failure => exact ends_settled tended opened _

theorem pattern?_advanced (tended : Tended b) (opened : o ∈ b.opened) (p : Pattern) (key : Nat) :
    (b.noting o.key (.pattern p.advance)).pattern? key =
      if o.key = key then some p.advance else b.pattern? key :=
  pattern?_noting (tended.known o opened) key

theorem tended_advanced (tended : Tended b) (opened : o ∈ b.opened) (found : b.pattern? o.key = some p) :
    Tended (b.noting o.key (.pattern p.advance)) := by
  have advanced : p.advance.latencyMillis = p.latencyMillis := by
    unfold Pattern.advance
    split <;> rfl
  apply tended.watch (size_noting b _ _)
  intro key _
  show ((b.noting o.key (.pattern p.advance)).pattern? key).map _ = (b.pattern? key).map _
  rw [pattern?_advanced tended opened]
  by_cases own : o.key = key
  · rw [if_pos own, ← own, found, Option.map_some, Option.map_some, advanced]
  · rw [if_neg own]

end Bench
end Tripwire.Rehearsal
