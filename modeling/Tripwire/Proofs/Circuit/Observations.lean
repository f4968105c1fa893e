import Tripwire.Proofs.Circuit.Provenance

namespace Tripwire.Circuit

inductive Told where
  | matched
  | unmatched
  | ended (error? : Option String)
  | cutOff
  | abandoned
  deriving DecidableEq, Repr

/-- What an event tells of the observation with an index. -/
def Event.told? (event : Event) (index : Nat) : Option Told :=
  match event with
  | .matched told => if index = told then some .matched else none
  | .unmatched told => if index = told then some .unmatched else none
  | .settled told error? => if index = told then some (.ended error?) else none
  | .cutOff told => if index = told then some .cutOff else none
  | .abandon => some .abandoned
  | _ => none

namespace Process

variable {p q : Process} {now : Time.Instant} {event : Event}

def Stage.told (s : Stage) (key : Nat) : List Told :=
  s.before.observing.filterMap fun o => if o.watcher.key = key then s.event.told? o.index else none

def told (key : Nat) (stages : List Stage) : List Told := stages.flatMap (·.told key)

theorem told_append (key : Nat) (stages later : List Stage) :
    told key (stages ++ later) = told key stages ++ told key later :=
  List.flatMap_append

theorem told_singleton (key : Nat) (s : Stage) : told key [s] = s.told key :=
  List.flatMap_singleton ..

theorem Course.single (taken : p.step? now event = some q) : Course p [⟨p, now, event, q⟩] q :=
  .step .refl taken

def remaining (p : Process) : Event → List Observing
  | .next => if p.circuit.stopped then [] else observations p.circuit
  | .settled index _ | .cutOff index => p.observing.filter (·.index ≠ index)
  | .abandon | .leave => []
  | _ => p.observing

def limit? (p : Process) : Option Time.Span :=
  match p.progress with
  | .cycling cycle => cycle.limit?
  | _ => none

theorem Step.remaining (step : Step now p event q) (coherent : Coherent p) :
    q.observing = p.remaining event := by
  cases step with
  | operate progress operation => cases operation <;> rfl
  | forgo progress options begun =>
      obtain ⟨startable, -⟩ := begin_over begun
      obtain rfl := coherent.unstarted_of_isOpen (isOpen_of_startFault? startable)
      rfl
  | request progress begun keyless =>
      obtain ⟨startable, -⟩ := begin_running begun
      obtain rfl := coherent.unstarted_of_isOpen (isOpen_of_startFault? startable)
      rfl
  | enter progress begun keyed =>
      obtain ⟨startable, -⟩ := begin_running begun
      obtain rfl := coherent.unstarted_of_isOpen (isOpen_of_startFault? startable)
      exact (satisfied_openSession ..).2.2
  | issue contentHash options identity => exact (satisfied_openSession ..).2.2
  | halt pause? stopped => exact (if_pos stopped).symm
  | begin pause? going => exact (if_neg (by simp [going])).symm
  | report observes report => cases report <;> rfl
  | release release => cases release <;> rfl
  | _ => rfl

theorem Step.limit? (step : Step now p event q) (within : event ≠ .next) :
    q.observing = [] ∨ q.limit? = p.limit? := by
  cases step with
  | halt | begin => exact absurd rfl within
  | enter | issue => exact .inl ((satisfied_openSession ..).2.2)
  | operate | report | release | call | answer | skip | close => exact .inr rfl
  | _ => exact .inl rfl

end Process
end Tripwire.Circuit
