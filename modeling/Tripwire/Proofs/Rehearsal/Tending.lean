import Mathlib.Data.List.Nodup
import Tripwire.Proofs.Circuit.Observations
import Tripwire.Proofs.Rehearsal.Moves

namespace Tripwire

theorem filterMap_of_only {α β γ : Type} {xs : List α} {x : α} (key : α → γ) {f : α → Option β}
    (mem : x ∈ xs) (distinct : (xs.map key).Nodup) (others : ∀ y ∈ xs, key y ≠ key x → f y = none) :
    xs.filterMap f = (f x).toList := by
  obtain ⟨before, after, rfl⟩ := List.append_of_mem mem
  rw [List.map_append, List.map_cons, List.nodup_append, List.nodup_cons] at distinct
  obtain ⟨-, ⟨fresh, -⟩, apart⟩ := distinct
  have earlier : before.filterMap f = [] := by
    rw [List.filterMap_eq_nil_iff]
    intro y mem
    apply others y (List.mem_append_left _ mem)
    exact apart _ (List.mem_map_of_mem mem) _ List.mem_cons_self
  have later : after.filterMap f = [] := by
    rw [List.filterMap_eq_nil_iff]
    intro y mem
    apply others y (List.mem_append_right _ (List.mem_cons_of_mem _ mem))
    intro same
    exact fresh (same ▸ List.mem_map_of_mem mem)
  rw [List.filterMap_append, earlier, List.nil_append, List.filterMap_cons, later]
  cases f x <;> rfl

namespace Rehearsal

open Circuit.Process (Stage step_of_step? told)

def Open.seat (o : Open) : Nat × Nat := (o.index, o.key)

def seatOf (o : Circuit.Observing) : Nat × Nat := (o.index, o.watcher.key)

theorem indices_of_seats {opened opened' : List Open}
    (seats : opened.map Open.seat = opened'.map Open.seat) :
    opened.map Open.index = opened'.map Open.index ∧ opened.map Open.key = opened'.map Open.key := by
  have indices := congrArg (List.map Prod.fst) seats
  have keys := congrArg (List.map Prod.snd) seats
  rw [List.map_map, List.map_map] at indices keys
  exact ⟨indices, keys⟩

theorem seats_filter {observing : List Circuit.Observing} {opened : List Open}
    (seats : observing.map seatOf = opened.map Open.seat) (index : Nat) :
    (observing.filter (·.index ≠ index)).map seatOf = (opened.filter (·.index ≠ index)).map Open.seat := by
  have others := congrArg (List.filter fun seat => seat.1 ≠ index) seats
  rw [List.filter_map, List.filter_map] at others
  exact others

def WatcherState.pattern? : WatcherState → Option Pattern
  | .pattern p => some p
  | .steps .. => none

namespace Bench

variable {b : Bench} {o : Open} {event : Circuit.Event} {q : Circuit.Process}

def pattern? (b : Bench) (key : Nat) : Option Pattern := b.watchers[key]?.bind WatcherState.pattern?

theorem pattern?_congr {b' : Bench} (watchers : b'.watchers = b.watchers) (key : Nat) :
    b'.pattern? key = b.pattern? key := by
  rw [pattern?, watchers, pattern?]

def latency? (b : Bench) (key : Nat) : Option Nat := (b.pattern? key).map (·.latencyMillis)

def Awaits (b : Bench) (o : Open) : Prop :=
  match o.waiting with
  | .fresh => True
  | .latency _ => b.latency? o.key ≠ some 0
  | .asleep .. => b.latency? o.key = none

structure Tended (b : Bench) : Prop where
  coherent : b.process.Coherent
  seats : b.process.observing.map seatOf = b.opened.map Open.seat
  indices : (b.opened.map Open.index).Nodup
  keys : (b.opened.map Open.key).Nodup
  known : ∀ o ∈ b.opened, o.key < b.watchers.size
  registered : (b.circuit.watchers.map Circuit.Watcher.key).Nodup
  placed : ∀ w ∈ b.circuit.watchers, w.key < b.watchers.size
  limited : b.opened ≠ [] → b.deadline?.isSome → b.process.limit?.isSome
  waits : ∀ o ∈ b.opened, b.Awaits o

theorem tended_new (executor : ExecutorPlan) (issuer : IssuerPlan) : Tended (new executor issuer) where
  coherent := Circuit.Process.coherent_new
  seats := rfl
  indices := .nil
  keys := .nil
  known := nofun
  registered := .nil
  placed := nofun
  limited := fun opened => absurd rfl opened
  waits := nofun

theorem happen_of_taken (taken : b.process.step? now event = some q) :
    b.happen event = { b with process := q } := by
  rw [happen, taken]
  rfl

namespace Tended

theorem told_eq (tended : Tended b) (key : Nat) :
    (⟨b.process, now, event, q⟩ : Stage).told key =
      b.opened.filterMap fun o => if o.key = key then event.told? o.index else none := by
  have same (seat : Nat × Nat → Option Circuit.Told) :
      b.process.observing.filterMap (seat ∘ seatOf) = b.opened.filterMap (seat ∘ Open.seat) := by
    rw [← List.filterMap_map, tended.seats, List.filterMap_map]
  exact same fun seat => if seat.2 = key then event.told? seat.1 else none

theorem told_of_open (tended : Tended b) (opened : o ∈ b.opened) {call : Circuit.Told}
    (tells : ∀ index, event.told? index = if index = o.index then some call else none) (key : Nat) :
    (⟨b.process, now, event, q⟩ : Stage).told key = if o.key = key then [call] else [] := by
  rw [tended.told_eq, filterMap_of_only Open.index opened tended.indices]
  · rw [tells, if_pos rfl]
    split <;> rfl
  · intro other _ apart
    rw [tells, if_neg apart, ite_self]

theorem exists_observing (tended : Tended b) (opened : o ∈ b.opened) :
    ∃ cycle, b.process.progress = .cycling cycle ∧ cycle.observes o.index = true := by
  have seat : o.seat ∈ b.process.observing.map seatOf := tended.seats ▸ List.mem_map_of_mem opened
  obtain ⟨x, observed, same⟩ := List.mem_map.mp seat
  cases progress : b.process.progress with
  | cycling cycle =>
      refine ⟨cycle, rfl, List.any_eq_true.mpr ⟨x, ?_, decide_eq_true (congrArg Prod.fst same)⟩⟩
      simpa [Circuit.Process.observing, progress] using observed
  | _ => simp [Circuit.Process.observing, progress] at observed

theorem still {b' : Bench} (tended : Tended b) (process : b'.process = b.process)
    (watchers : b'.watchers = b.watchers) (opened : b'.opened = b.opened)
    (deadline : b'.deadline? = b.deadline?) : Tended b' := by
  obtain ⟨_, _, _, _, _, _, _, _, _, _, _⟩ := b
  obtain ⟨_, _, _, _, _, _, _, _, _, _, _⟩ := b'
  cases process
  cases watchers
  cases opened
  cases deadline
  exact ⟨tended.coherent, tended.seats, tended.indices, tended.keys, tended.known, tended.registered,
    tended.placed, tended.limited, tended.waits⟩

theorem step (tended : Tended b) (taken : b.process.step? now event = some q)
    (within : event ≠ .next) (unregistered : ∀ watchers, event ≠ .setConditions watchers)
    {opened : List Open} (fewer : opened.Sublist b.opened)
    (seats : (b.process.remaining event).map seatOf = opened.map Open.seat) :
    Tended { b with process := q, opened := opened } := by
  have step := step_of_step? taken
  have watchers : q.circuit.watchers = b.circuit.watchers := by
    apply (step.conditions ?_).1
    cases event with
    | setConditions watchers => exact absurd rfl (unregistered watchers)
    | _ => rfl
  have left := step.remaining tended.coherent
  constructor
  case coherent => exact step.coherent tended.coherent
  case seats =>
    show q.observing.map seatOf = _
    rw [left, seats]
  case indices => exact tended.indices.sublist (fewer.map _)
  case keys => exact tended.keys.sublist (fewer.map _)
  case known => exact fun o mem => tended.known o (fewer.subset mem)
  case registered =>
    show (q.circuit.watchers.map _).Nodup
    rw [watchers]
    exact tended.registered
  case placed =>
    show ∀ w ∈ q.circuit.watchers, _
    rw [watchers]
    exact tended.placed
  -- A limit is set where a cycle begins, and it stays as long as anything is observed.
  case limited =>
    intro present due
    rcases step.limit? within with ended | same
    · rw [← left, ended] at seats
      exact absurd (List.map_eq_nil_iff.mp seats.symm) present
    · have before : b.opened ≠ [] := fun empty => present (List.sublist_nil.mp (empty ▸ fewer))
      exact same ▸ tended.limited before due
  case waits => exact fun o mem => tended.waits o (fewer.subset mem)

theorem happen (tended : Tended b) (within : event ≠ .next)
    (unregistered : ∀ watchers, event ≠ .setConditions watchers)
    (still : b.process.remaining event = b.process.observing) : Tended (b.happen event) := by
  cases taken : b.process.step? now event with
  | none => simpa [Bench.happen, taken] using tended
  | some q =>
      rw [happen_of_taken taken]
      exact tended.step taken within unregistered (List.Sublist.refl _) (still ▸ tended.seats)

theorem close (tended : Tended b) (taken : b.process.step? now event = some q)
    (ends : b.process.remaining event = b.process.observing.filter (·.index ≠ o.index))
    (within : event ≠ .next) (unregistered : ∀ watchers, event ≠ .setConditions watchers) :
    Tended { b with process := q, opened := b.opened.filter (·.index ≠ o.index) } := by
  apply tended.step taken within unregistered List.filter_sublist
  rw [ends]
  exact seats_filter tended.seats o.index

theorem watch (tended : Tended b) {watchers : Array WatcherState} (grown : b.watchers.size ≤ watchers.size)
    (same : ∀ key < b.watchers.size, ({ b with watchers := watchers } : Bench).latency? key = b.latency? key) :
    Tended { b with watchers := watchers } := by
  constructor
  case coherent => exact tended.coherent
  case seats => exact tended.seats
  case indices => exact tended.indices
  case keys => exact tended.keys
  case known => exact fun o mem => Nat.lt_of_lt_of_le (tended.known o mem) grown
  case registered => exact tended.registered
  case placed => exact fun w mem => Nat.lt_of_lt_of_le (tended.placed w mem) grown
  case limited => exact tended.limited
  case waits =>
    intro o mem
    have waits := tended.waits o mem
    have latency := same o.key (tended.known o mem)
    unfold Awaits at waits ⊢
    rw [latency]
    exact waits

theorem wait (tended : Tended b) (opened : o ∈ b.opened) {waiting : Waiting}
    (awaits : b.Awaits { o with waiting := waiting }) :
    Tended { b with opened := b.opened.map fun p =>
      if p.index = o.index then { o with waiting := waiting } else p } := by
  have only : ∀ p ∈ b.opened, p.index = o.index → p = o := fun p mem =>
    List.inj_on_of_nodup_map tended.indices mem opened
  have seats : (b.opened.map fun p => if p.index = o.index then { o with waiting := waiting } else p).map
      Open.seat = b.opened.map Open.seat := by
    rw [List.map_map]
    apply List.map_congr_left
    intro p mem
    by_cases same : p.index = o.index
    · rw [Function.comp_apply, if_pos same, only p mem same]
      rfl
    · rw [Function.comp_apply, if_neg same]
  obtain ⟨indices, keys⟩ := indices_of_seats seats
  constructor
  case coherent => exact tended.coherent
  case seats => exact tended.seats.trans seats.symm
  case indices => exact indices.symm ▸ tended.indices
  case keys => exact keys.symm ▸ tended.keys
  case known =>
    rw [List.forall_mem_map]
    intro p mem
    split
    · exact tended.known o opened
    · exact tended.known p mem
  case registered => exact tended.registered
  case placed => exact tended.placed
  case limited => exact fun present => tended.limited (by simpa using present)
  case waits =>
    rw [List.forall_mem_map]
    intro p mem
    split
    · exact awaits
    · exact tended.waits p mem

end Tended

def freshOpen (observing : List Circuit.Observing) : List Open :=
  observing.map fun o => ⟨o.index, o.watcher.key, .fresh⟩

theorem seats_freshOpen (observing : List Circuit.Observing) :
    (freshOpen observing).map Open.seat = observing.map seatOf :=
  List.map_map

theorem indices_freshOpen (c : Circuit) :
    (freshOpen (Circuit.Process.observations c)).map Open.index = List.range' 0 c.watchers.length := by
  rw [← List.zipIdx_map_snd, freshOpen, Circuit.Process.observations, List.map_map, List.map_map]
  rfl

theorem keys_freshOpen (c : Circuit) :
    (freshOpen (Circuit.Process.observations c)).map Open.key = c.watchers.map Circuit.Watcher.key := by
  rw [freshOpen, Circuit.Process.observations, List.map_map, List.map_map]
  conv_rhs => rw [← List.zipIdx_map_fst 0 c.watchers, List.map_map]
  rfl

theorem step?_next {pause? : Option Time.Span} (between : b.process.progress = .between pause?) :
    b.process.step? now .next = some (Circuit.Process.beginCycle b.circuit) := by
  unfold Circuit.Process.step?
  rw [between]
  rfl

theorem process_beginCycle {pause? : Option Time.Span} (between : b.process.progress = .between pause?) :
    b.beginCycle.process = Circuit.Process.beginCycle b.circuit ∧ b.beginCycle.watchers = b.watchers := by
  unfold Bench.beginCycle
  rw [happen_of_taken (step?_next between)]
  simp only
  split <;> exact ⟨rfl, rfl⟩

theorem beginCycle_of_stopped {pause? : Option Time.Span}
    (between : b.process.progress = .between pause?) (stopped : b.circuit.stopped = true) :
    b.beginCycle = { b with process := .finish b.circuit (.ok ()), pauseEnd? := none } := by
  unfold Bench.beginCycle
  rw [happen_of_taken (step?_next between), Circuit.Process.beginCycle, if_pos stopped]
  rfl

theorem beginCycle_of_going {pause? : Option Time.Span}
    (between : b.process.progress = .between pause?) (going : b.circuit.stopped = false) :
    b.beginCycle = { b with
      process := ⟨{ b.circuit with fired := false }, .cycling (Circuit.Process.freshCycle b.circuit)⟩
      opened := freshOpen (Circuit.Process.observations b.circuit)
      deadline? := b.circuit.interval?.map (b.clock + ·.toMillis)
      pauseEnd? := none } := by
  unfold Bench.beginCycle
  rw [happen_of_taken (step?_next between), Circuit.Process.beginCycle, if_neg (by simp [going])]
  rfl

theorem Tended.beginCycle (tended : Tended b) {pause? : Option Time.Span}
    (between : b.process.progress = .between pause?) : Tended b.beginCycle := by
  have unopened : b.opened = [] := by
    have seats := tended.seats
    simpa [Circuit.Process.observing, between] using seats.symm
  have begun : (Circuit.Process.beginCycle b.circuit).Coherent := by
    have step := Circuit.Process.step_beginCycle b.circuit now pause?
    have coherent : Circuit.Process.Coherent ⟨b.circuit, .between pause?⟩ := between ▸ tended.coherent
    exact step.coherent coherent
  cases stopped : b.circuit.stopped with
  | true =>
      rw [Circuit.Process.beginCycle, if_pos stopped] at begun
      rw [beginCycle_of_stopped between stopped]
      constructor
      case coherent => exact begun
      case seats => exact (congrArg (List.map Open.seat) unopened).symm
      case indices => exact tended.indices
      case keys => exact tended.keys
      case known => exact tended.known
      case registered => exact tended.registered
      case placed => exact tended.placed
      case limited => exact fun present => absurd unopened present
      case waits => exact tended.waits
  | false =>
      rw [Circuit.Process.beginCycle, if_neg (by simp [stopped])] at begun
      rw [beginCycle_of_going between stopped]
      constructor
      case coherent => exact begun
      case seats => exact (seats_freshOpen _).symm
      case indices => exact indices_freshOpen b.circuit ▸ List.nodup_range'
      case keys => exact keys_freshOpen b.circuit ▸ tended.registered
      case known =>
        intro o mem
        have key : o.key ∈ b.circuit.watchers.map Circuit.Watcher.key :=
          keys_freshOpen b.circuit ▸ List.mem_map_of_mem mem
        obtain ⟨w, registered, same⟩ := List.mem_map.mp key
        exact same ▸ tended.placed w registered
      case registered => exact tended.registered
      case placed => exact tended.placed
      case limited => exact fun _ bounded => Option.isSome_map.symm.trans bounded
      case waits =>
        intro o mem
        obtain ⟨x, -, rfl⟩ := List.mem_map.mp mem
        trivial

theorem pattern?_append {watchers : List WatcherState} {key : Nat} (within : key < b.watchers.size) :
    ({ b with watchers := b.watchers ++ watchers.toArray } : Bench).pattern? key = b.pattern? key := by
  unfold pattern?
  rw [Array.getElem?_append_left within]

def newcomers (b : Bench) (plans : List WatcherPlan) : List Circuit.Watcher :=
  (plans.map WatcherState.ofPlan).zipIdx.map fun (state, i) => ⟨b.watchers.size + i, state.describe⟩

theorem keys_newcomers (b : Bench) (plans : List WatcherPlan) :
    (b.newcomers plans).map Circuit.Watcher.key = List.range' b.watchers.size plans.length := by
  have places := List.zipIdx_map_snd 0 (plans.map WatcherState.ofPlan)
  have moved := congrArg (List.map (b.watchers.size + ·)) places
  rw [List.map_add_range', List.length_map, List.map_map] at moved
  rw [newcomers, List.map_map]
  exact moved

theorem Tended.register (tended : Tended b) (plans : List WatcherPlan) : Tended (b.register plans) := by
  have grown : b.watchers.size ≤ (b.watchers ++ (plans.map WatcherState.ofPlan).toArray).size := by
    simp
  have joined := tended.watch grown fun key within => congrArg _ (pattern?_append within)
  have operation : Circuit.Operation now b.circuit _ _ := .setConditions (b.newcomers plans)
  obtain ⟨status, same⟩ := Circuit.setConditions_eq b.circuit (b.newcomers plans)
  have registered : (b.register plans).circuit.watchers = b.newcomers plans :=
    congrArg Circuit.watchers same
  constructor
  case coherent => exact joined.coherent.operate operation
  case seats => exact joined.seats
  case indices => exact joined.indices
  case keys => exact joined.keys
  case known => exact joined.known
  case registered =>
    rw [registered, keys_newcomers]
    exact List.nodup_range'
  case placed =>
    rw [registered]
    intro w mem
    have key := List.mem_map_of_mem (f := Circuit.Watcher.key) mem
    rw [keys_newcomers, List.mem_range'_1] at key
    show w.key < (b.watchers ++ (plans.map WatcherState.ofPlan).toArray).size
    simpa using key.2
  case limited => exact joined.limited
  case waits => exact joined.waits

end Bench
end Rehearsal
end Tripwire
