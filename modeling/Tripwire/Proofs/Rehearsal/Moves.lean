import Mathlib.Logic.Relation
import Tripwire.Rehearsal.Launch

namespace Tripwire.Rehearsal.Bench

variable {b b' : Bench}

inductive Aside (b : Bench) : Circuit.Event → Prop where
  | stop : Aside b .stop
  | start (options : Circuit.Options) : Aside b (.start options)
  | issued (answer : Except Signer.Refusal Signer.Identity) : Aside b (.issued answer)
  | call : Aside b .call
  | answered (answer : Except Circuit.RunFailure Value) : Aside b (.answered answer)
  | close : Aside b .close
  | leave (unopened : b.opened = []) : Aside b .leave

/-- What a bench does in one go. -/
inductive Move : Bench → Bench → Prop where
  | still {b b' : Bench} (process : b'.process = b.process) (watchers : b'.watchers = b.watchers)
      (opened : b'.opened = b.opened) (deadline : b'.deadline? = b.deadline?) : Move b b'
  | act (b : Bench) (a : Act) : Move b (b.act a).1
  | happen {b : Bench} {event : Circuit.Event} (aside : Aside b event) : Move b (b.happen event)
  | beginCycle {b : Bench} {pause? : Option Time.Span} (between : b.process.progress = .between pause?) :
      Move b b.beginCycle
  | poll {b : Bench} {o : Open} (opened : o ∈ b.opened) (ready : b.isReady o = true) : Move b (b.poll o)
  | abandon {b : Bench} {cycle : Circuit.Cycle} (cycling : b.process.progress = .cycling cycle)
      (stopped : b.circuit.stopped = true) (waiting : ∀ o ∈ b.opened, b.isReady o = false) :
      Move b { b.happen .abandon with opened := [] }

def Moves : Bench → Bench → Prop := Relation.ReflTransGen Move

namespace Moves

theorem refl (b : Bench) : Moves b b := Relation.ReflTransGen.refl

theorem trans {c : Bench} (left : Moves b b') (right : Moves b' c) : Moves b c :=
  Relation.ReflTransGen.trans left right

theorem move (move : Move b b') : Moves b b' := Relation.ReflTransGen.single move

theorem still (process : b'.process = b.process) (watchers : b'.watchers = b.watchers)
    (opened : b'.opened = b.opened) (deadline : b'.deadline? = b.deadline?) : Moves b b' :=
  move (.still process watchers opened deadline)

end Moves

theorem moves_respond (b : Bench) (method target : String) :
    Moves b { b with process :=
      { b.process with circuit := (Http.respond b.circuit method target).1 } } := by
  unfold Http.respond
  split
  split
  · exact .refl b
  · rename_i route found
    split
    · exact .refl b
    · cases route with
      | stop => exact .move (.happen .stop)
      | _ => exact .refl b

theorem moves_actAs (b : Bench) (who : String) (a : Act) : Moves b (b.actAs who a) := by
  have acted : Moves b (b.act a).1 := .move (.act b a)
  exact acted.trans (.still rfl rfl rfl rfl)

theorem moves_call (b : Bench) (request : Circuit.Request) : Moves b (b.call request) := by
  have seen : Moves b (b.see (.executes request)) := .still rfl rfl rfl rfl
  have called := seen.trans (.move (.happen .call))
  unfold call
  simp only
  split
  · rename_i echo _
    have counted : Moves ((b.see (.executes request)).happen .call)
        { (b.see (.executes request)).happen .call with executor := .echo (echo.execute request).1 } :=
      .still rfl rfl rfl rfl
    exact (called.trans counted).trans (.move (.happen (.answered _)))
  · exact called.trans (.still rfl rfl rfl rfl)

theorem moves_acts (who : String) (acts : List Act) (b : Bench) :
    Moves b (acts.foldl (fun b a => b.actAs who a) b) := by
  induction acts generalizing b with
  | nil => exact .refl b
  | cons a rest ih => exact (moves_actAs b who a).trans (ih _)

theorem moves_land (b : Bench) (flight : Flight) : Moves b (b.land flight) := by
  have acted := moves_acts "executor" flight.plan.acts b
  refine (acted.trans ?_).trans (.move (.happen (.answered _)))
  exact .still rfl rfl rfl rfl

theorem moves_leaveCycle (unopened : b.opened = []) : Moves b b.leaveCycle := by
  have left : Moves b (b.happen .leave) := .move (.happen (.leave unopened))
  unfold leaveCycle
  simp only
  split
  · exact left.trans (.still rfl rfl rfl rfl)
  · exact left

theorem moves_cycleStep? {cycle : Circuit.Cycle} (cycling : b.process.progress = .cycling cycle)
    (taken : b.cycleStep? cycle = some b') : Moves b b' := by
  unfold cycleStep? at taken
  split at taken
  · rename_i o found
    cases taken
    exact .move (.poll (List.mem_of_find?_eq_some found) (List.find?_some found))
  · rename_i unready
    split at taken
    · rename_i stopped
      cases taken
      rw [Bool.and_eq_true] at stopped
      have waiting : ∀ o ∈ b.opened, b.isReady o = false := by simpa using unready
      exact .move (.abandon cycling stopped.1 waiting)
    · split at taken
      · split at taken
        · cases taken
          exact moves_land b _
        · cases taken
      · split at taken
        · obtain ⟨request, -, rfl⟩ := Option.map_eq_some_iff.mp taken
          exact moves_call b request
        · split at taken
          · cases taken
          · rename_i unopened
            split at taken
            · cases taken
              exact moves_leaveCycle (by simpa using unopened)
            · cases taken
              exact .move (.happen .close)

theorem moves_step? (taken : b.step? = some b') : Moves b b' := by
  unfold step? at taken
  split at taken
  · cases taken
  · cases taken
  · cases taken
    exact .move (.happen (.issued _))
  · rename_i between
    split at taken
    · cases taken
    · cases taken
      exact .move (.beginCycle between)
  · rename_i between
    split at taken
    · cases taken
      exact .still rfl rfl rfl rfl
    · split at taken
      · cases taken
        exact .move (.beginCycle between)
      · cases taken
  · rename_i cycling
    exact moves_cycleStep? cycling taken

theorem moves_settle (fuel : Nat) (b : Bench) : Moves b (settle fuel b) := by
  induction fuel generalizing b with
  | zero => exact .refl b
  | succ fuel ih =>
      simp only [settle]
      split
      · rename_i b' taken
        exact (moves_step? taken).trans (ih b')
      · exact .refl b

theorem moves_open_ (b : Bench) (options : Circuit.Options) (meanwhile : List (Nat × Step)) :
    Moves b (b.open_ options meanwhile).1 := by
  have started : Moves b (b.happen (.start options)) := .move (.happen (.start options))
  unfold open_
  simp only
  split
  · exact started
  · exact started.trans (moves_settle _ _)

theorem moves_advance (b : Bench) (f : Frame) (outer : List Frame) :
    Moves b (b.advance f outer).1 := by
  unfold advance
  split
  · exact .refl b
  · exact .refl b
  · rename_i at_ step rest _ _
    cases step with
    | act a => exact .move (.act b a)
    | sleep millis => exact .refl b
    | http method target => exact moves_respond b method target
    | start options meanwhile => exact moves_open_ b options meanwhile

theorem moves_run (fuel : Nat) (b : Bench) (frames : List Frame) :
    Moves b (run fuel b frames).1 := by
  induction fuel generalizing b frames with
  | zero => exact .refl b
  | succ fuel ih =>
      cases frames with
      | nil => exact .refl b
      | cons f outer =>
          simp only [run]
          split
          · exact (moves_advance b _ _).trans (ih _ _)
          · split
            · exact .refl b
            · exact ih b _
            · split
              · rename_i b' taken
                have rested : Moves b { b with yielding := false } := .still rfl rfl rfl rfl
                exact (rested.trans (moves_step? taken)).trans ((moves_settle _ b').trans (ih _ _))
              · split
                · rename_i t _
                  have later : Moves b { b with yielding := false, clock := t } := .still rfl rfl rfl rfl
                  exact later.trans ((moves_settle _ _).trans (ih _ _))
                · exact .refl b

theorem moves_perform (b : Bench) (step : Step) : Moves b (b.perform step).1 := by
  cases step with
  | act a => exact .move (.act b a)
  | sleep millis => exact .still rfl rfl rfl rfl
  | http method target => exact moves_respond b method target
  | start options meanwhile =>
      have ran := moves_run horizon (b.open_ options meanwhile).1 [(b.open_ options meanwhile).2]
      exact (moves_open_ b options meanwhile).trans ran

theorem moves_actAll {acts : List Act} (acted : b.actAll acts = .ok b') : Moves b b' := by
  induction acts generalizing b with
  | nil =>
      cases acted
      exact .refl b'
  | cons a rest ih =>
      have first : Moves b (b.act a).1 := .move (.act b a)
      unfold actAll at acted
      split at acted
      · cases acted
      · rename_i went
        rw [went] at first
        exact first.trans (ih acted)

def performAll (b : Bench) (steps : List Step) : Bench :=
  steps.foldl (fun b step => (b.perform step).1) b

theorem moves_performAll (b : Bench) (steps : List Step) : Moves b (b.performAll steps) := by
  induction steps generalizing b with
  | nil => exact .refl b
  | cons step rest ih => exact (moves_perform b step).trans (ih _)

end Tripwire.Rehearsal.Bench
