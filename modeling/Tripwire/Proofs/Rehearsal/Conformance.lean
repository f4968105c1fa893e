import Tripwire.Proofs.Circuit.Course
import Tripwire.Proofs.Rehearsal.Moves

/-!
# Rehearsals are courses

A bench chooses when events happen, but nothing else happens to its circuit: in each of its moves the circuit
takes possible steps, so whatever the bench does is a course of them, and what holds along all courses holds in
every rehearsal.
-/
namespace Tripwire.Rehearsal

open Circuit.Process (Course Stage)

def Leads (b b' : Bench) : Prop := ∃ stages, Course b.process stages b'.process

namespace Leads

variable {a b c : Bench}

theorem still (same : b.process = a.process) : Leads a b := by
  refine ⟨[], ?_⟩
  rw [same]
  exact .refl

theorem refl (b : Bench) : Leads b b := still rfl

theorem after (same : b.process = a.process) (leads : Leads b c) : Leads a c := by
  obtain ⟨stages, course⟩ := leads
  exact ⟨stages, same ▸ course⟩

theorem trans (left : Leads a b) (right : Leads b c) : Leads a c := by
  obtain ⟨first, earlier⟩ := left
  obtain ⟨second, later⟩ := right
  exact ⟨first ++ second, earlier.trans later⟩

end Leads

namespace Bench

variable {b b' : Bench}

theorem leads_happen (b : Bench) (event : Circuit.Event) : Leads b (b.happen event) := by
  cases taken : b.process.step? now event with
  | none => exact .still (by simp [happen, taken])
  | some p =>
      have same : (b.happen event).process = p := by simp [happen, taken]
      refine ⟨[⟨b.process, now, event, p⟩], ?_⟩
      rw [same]
      exact .step .refl taken

theorem leads_act (b : Bench) (a : Act) : Leads b (b.act a).1 := by
  cases a with
  | misread misreading => exact .refl b
  | setConditions plans => exact leads_happen _ _
  | setLogic logic => exact leads_happen b _
  | setConstraints constraints => exact leads_happen b _
  | setActions actions => exact leads_happen b (.setActions actions)
  | stop => exact leads_happen b _
  | state => exact .refl b
  | logs category? => exact .refl b
  | script render => exact .refl b

theorem leads_runSteps (index : Nat) (name : String) (b : Bench) (steps : List WatchStep) :
    Leads b (runSteps index name b steps).1 := by
  induction steps generalizing b with
  | nil => exact leads_happen b _
  | cons step rest ih =>
      cases step with
      | matched => exact (leads_happen b _).trans (ih _)
      | unmatched => exact (leads_happen b _).trans (ih _)
      | fail error => exact leads_happen b _
      | act a => exact (leads_act b a).trans (ih (b.actAs name a))
      | sleep millis =>
          simp only [runSteps]
          split
          · exact ih (b.see (.woke name))
          · exact .refl b

theorem leads_report (b : Bench) (index key : Nat) (p : Pattern) :
    Leads b (b.report index key p) := by
  unfold report
  simp only
  cases p.current with
  | holds => exact (leads_happen _ _).trans (leads_happen _ _)
  | holdsNot => exact (leads_happen _ _).trans (leads_happen _ _)
  | nothing => exact leads_happen _ _
  | failure => exact leads_happen _ _

theorem leads_beginObservation (b : Bench) (index key : Nat) :
    Leads b (b.beginObservation index key).1 := by
  unfold beginObservation
  split
  · exact leads_happen b _
  · split
    · exact leads_report b index key _
    · exact .refl b
  · simp only
    refine Leads.after ?_ (leads_runSteps _ _ _ _)
    rfl

theorem leads_resume (b : Bench) (o : Open) : Leads b (b.resume o).1 := by
  unfold resume
  split
  · exact leads_beginObservation b _ _
  · split
    · exact leads_report b _ _ _
    · exact leads_happen b _
  · refine Leads.after ?_ (leads_runSteps _ _ _ _)
    rfl

theorem leads_poll (b : Bench) (o : Open) : Leads b (b.poll o) := by
  have resumed : Leads b
      (if b.isDue o.waiting.wake? then b.resume o else (b, some o.waiting)).1 := by
    split
    · exact leads_resume b o
    · exact .refl b
  unfold poll
  simp only
  generalize (if b.isDue o.waiting.wake? then b.resume o else (b, some o.waiting)) = went at *
  obtain ⟨middle, waiting?⟩ := went
  cases waiting? with
  | none => exact resumed
  | some waiting =>
      simp only
      split
      · exact resumed.trans (leads_happen middle _)
      · exact resumed

theorem leads_beginCycle (b : Bench) : Leads b b.beginCycle := by
  unfold beginCycle
  simp only
  split
  · exact leads_happen b .next
  · exact leads_happen b .next

theorem Move.leads (move : Move b b') : Leads b b' := by
  cases move with
  | still process => exact .still process
  | act a => exact leads_act b a
  | happen aside => exact leads_happen b _
  | beginCycle between => exact leads_beginCycle b
  | poll opened ready => exact leads_poll b _
  | abandon cycling stopped waiting => exact leads_happen b .abandon

theorem Moves.leads (moves : Moves b b') : Leads b b' := by
  induction moves with
  | refl => exact .refl b
  | tail _ move ih => exact ih.trans move.leads

theorem performed_course (executor : ExecutorPlan) (issuer : IssuerPlan) (steps : List Step) :
    ∃ stages, Course .new stages ((new executor issuer).performAll steps).process :=
  (moves_performAll (new executor issuer) steps).leads

theorem launched_course {config : Config} {b : Bench} (launched : launch config = .ok b)
    (steps : List Step) : ∃ stages, Course .new stages (b.performAll steps).process :=
  ((moves_actAll launched).trans (moves_performAll b steps)).leads

end Bench
end Tripwire.Rehearsal
