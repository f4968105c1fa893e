import Tripwire.Http.Router
import Tripwire.Proofs.Circuit.Masking
import Tripwire.Rehearsal.Echo

/-!
# Secrecy

What can be seen of a circuit from outside while the echo executor answers its runs. None of it depends on
the keys of fetches, or on the values that a start gives to its session.
-/
namespace Tripwire.Rehearsal
open Circuit (Event Process RunFailure StartError)

/-- A circuit with its executor. An answer is held until the circuit takes it. -/
structure Site where
  process : Process
  echo : Echo
  answer? : Option (Except RunFailure Value)

inductive Move where
  | happen (event : Event)
  | issue
  | execute
  | answer
  | ask (method target : String)

inductive Shown where
  | nothing
  | registered (result : Except Fault Unit)
  | began (beginning : Circuit.Beginning)
  | issued (answer : Except Signer.Refusal Signer.Identity)
  | answered (answer : Except RunFailure Value)
  | response (response : Http.Response)

structure Seen where
  code : String
  contentHash : String
  log : List Circuit.Noted
  counters : Run.Counters
  status : Circuit.Status
  satisfied : List Nat
  result? : Option (Except StartError PUnit)
  answers : String → String → Http.Response

def isForeign : Event → Bool
  | .issued _ | .call | .answered _ => true
  | _ => false

def shownBy (c : Circuit) (now : Time.Instant) : Event → Shown
  | .setActions actions => .registered (c.setActions now actions).2
  | .start _ => .began (c.begin now).2
  | _ => .nothing

namespace Site

def start (echo : Echo) : Site := ⟨.new, echo, none⟩

def circuit (s : Site) : Circuit := s.process.circuit

def seen (s : Site) : Seen where
  code := s.circuit.script.render
  contentHash := s.circuit.script.contentHash
  log := s.circuit.log.toList
  counters := s.circuit.counters
  status := s.circuit.status
  satisfied := s.circuit.satisfied.ids
  result? := match s.process.progress with
    | .ended result => some result
    | _ => none
  answers := fun method target => (Http.respond s.circuit method target).2

variable (issuer : String → Except Signer.Refusal Signer.Identity)

def step? (s : Site) (now : Time.Instant) : Move → Option (Site × Shown)
  | .happen event =>
      if isForeign event then none
      else (s.process.step? now event).map fun p =>
        ({ s with process := p }, shownBy s.circuit now event)
  | .issue =>
      match s.process.progress with
      | .opening contentHash _ =>
          (s.process.step? now (.issued (issuer contentHash))).map fun p =>
            ({ s with process := p }, .issued (issuer contentHash))
      | _ => none
  | .execute =>
      match s.process.request?.map s.echo.execute with
      | some (echo, answer) => (s.process.step? now .call).map fun p => (⟨p, echo, some answer⟩, .nothing)
      | none => none
  | .answer =>
      match s.answer? with
      | some answer => (s.process.step? now (.answered answer)).map fun p =>
          (⟨p, s.echo, none⟩, .answered answer)
      | none => none
  | .ask method target =>
      let (c, response) := Http.respond s.circuit method target
      some ({ s with process := { s.process with circuit := c } }, .response response)

def trail? (s : Site) : List (Time.Instant × Move) → Option (List (Shown × Site))
  | [] => some []
  | (now, move) :: rest =>
      match s.step? issuer now move with
      | some (next, shown) => (trail? next rest).map ((shown, next) :: ·)
      | none => none

def history? (s : Site) (moves : List (Time.Instant × Move)) : Option (List (Shown × Seen)) :=
  (s.trail? issuer moves).map (List.map (Prod.map id seen))

end Site

def Move.masked : Move → Move
  | .happen event => .happen event.masked
  | move => move

namespace Site

def masked (s : Site) : Site := { s with process := s.process.masked }

theorem serve_masked (c : Circuit) (route : Http.Route) (query : List Char) :
    Http.serve c.masked route query =
      ((Http.serve c route query).1.masked, (Http.serve c route query).2) := by
  cases route <;> rfl

theorem respond_masked (c : Circuit) (method target : String) :
    Http.respond c.masked method target =
      ((Http.respond c method target).1.masked, (Http.respond c method target).2) := by
  unfold Http.respond
  dsimp only
  split
  · rfl
  · split
    · rfl
    · rw [serve_masked]

theorem seen_masked (s : Site) : s.masked.seen = s.seen := by
  have result : s.masked.seen.result? = s.seen.result? := by
    obtain ⟨⟨c, progress⟩, echo, answer?⟩ := s
    cases progress <;> rfl
  have answers : s.masked.seen.answers = s.seen.answers := by
    funext method target
    show (Http.respond s.circuit.masked method target).2 = _
    rw [respond_masked]
    rfl
  unfold seen at result answers ⊢
  rw [Seen.mk.injEq]
  exact ⟨rfl, rfl, rfl, rfl, rfl, rfl, result, answers⟩

theorem execute_masked (echo : Echo) (request : Circuit.Request) :
    echo.execute request.masked = echo.execute request := by
  have names : (Circuit.hidden request.params).map Prod.fst = request.params.map Prod.fst :=
    Value.names_mapValues _ _
  have keyed : ((Circuit.hidden request.params).lookup Script.apiKeysParam).isSome =
      (request.params.lookup Script.apiKeysParam).isSome := by
    rw [Circuit.hidden, Value.lookup_mapValues, Option.isSome_map]
  have report (run : Nat) : Echo.report run request.masked = Echo.report run request := by
    have listed : (Circuit.hidden request.params).map (fun field => Value.str field.1) =
        request.params.map fun field => Value.str field.1 := List.map_map
    unfold Echo.report
    rw [show request.masked.params = Circuit.hidden request.params from rfl, keyed]
    exact congrArg (fun items => Value.object [_, _, _, ("params", .list items), _]) listed
  simp only [Echo.execute, report]
  rfl

variable (issuer : String → Except Signer.Refusal Signer.Identity)

theorem executed_masked (s : Site) :
    s.masked.process.request?.map s.echo.execute = s.process.request?.map s.echo.execute := by
  have masked := congrArg (Option.map s.echo.execute) (Circuit.request?_masked s.circuit)
  rw [Option.map_map, Option.map_map] at masked
  have same : s.echo.execute ∘ Circuit.Request.masked = s.echo.execute :=
    funext (execute_masked s.echo)
  rwa [same] at masked

theorem step?_masked (s : Site) (now : Time.Instant) (move : Move) :
    s.masked.step? issuer now move.masked =
      (s.step? issuer now move).map (Prod.map masked id) := by
  have taken (event : Event) : s.masked.process.step? now event.masked =
      (s.process.step? now event).map Process.masked := Process.step?_masked now s.process event
  cases move with
  | happen event =>
      have foreign : isForeign event.masked = isForeign event := by cases event <;> rfl
      have shown : shownBy s.masked.circuit now event.masked = shownBy s.circuit now event := by
        show shownBy s.circuit.masked now event.masked = shownBy s.circuit now event
        cases event with
        | setActions actions => simp [shownBy, Event.masked, Circuit.setActions_masked]
        | start options => simp [shownBy, Event.masked, Circuit.begin_masked]
        | _ => rfl
      simp only [Move.masked, step?, foreign, shown, taken]
      split
      · rfl
      · cases s.process.step? now event <;> rfl
  | issue =>
      have progress : s.masked.process.progress = s.process.progress.masked := rfl
      simp only [Move.masked, step?, progress]
      cases s.process.progress with
      | opening contentHash options =>
          have issued := taken (.issued (issuer contentHash))
          simp only [Event.masked] at issued
          simp only [Circuit.Progress.masked, issued]
          cases s.process.step? now (.issued (issuer contentHash)) <;> rfl
      | _ => rfl
  | execute =>
      have called := taken .call
      simp only [Event.masked] at called
      simp only [Move.masked, step?, called]
      rw [show s.masked.echo = s.echo from rfl, executed_masked]
      cases s.process.request?.map s.echo.execute with
      | none => rfl
      | some result => cases s.process.step? now .call <;> rfl
  | answer =>
      simp only [Move.masked, step?]
      rw [show s.masked.answer? = s.answer? from rfl]
      cases s.answer? with
      | none => rfl
      | some answer =>
          have answered := taken (.answered answer)
          simp only [Event.masked] at answered
          simp only [answered]
          cases s.process.step? now (.answered answer) <;> rfl
  | ask method target =>
      simp only [Move.masked, step?]
      rw [show s.masked.circuit = s.circuit.masked from rfl, respond_masked]
      generalize Http.respond s.circuit method target = answered
      rfl

theorem trail?_masked (s : Site) (moves : List (Time.Instant × Move)) :
    s.masked.trail? issuer (moves.map (Prod.map id Move.masked)) =
      (s.trail? issuer moves).map (List.map (Prod.map id masked)) := by
  induction moves generalizing s with
  | nil => rfl
  | cons move rest ih =>
      obtain ⟨now, move⟩ := move
      rw [List.map_cons, Prod.map_apply, id_eq, trail?, trail?, step?_masked]
      cases s.step? issuer now move with
      | none => rfl
      | some taken =>
          simp only [Option.map_some, Prod.map_fst, Prod.map_snd, id_eq, ih]
          cases taken.1.trail? issuer rest <;> rfl

theorem history?_masked (s : Site) (moves : List (Time.Instant × Move)) :
    s.masked.history? issuer (moves.map (Prod.map id Move.masked)) = s.history? issuer moves := by
  have same : Prod.map id seen ∘ Prod.map id masked = Prod.map (id : Shown → Shown) seen := by
    funext stop
    exact Prod.ext rfl (seen_masked stop.2)
  rw [history?, history?, trail?_masked]
  cases s.trail? issuer moves with
  | none => rfl
  | some trail => rw [Option.map_some, Option.map_some, Option.map_some, List.map_map, same]

/-- Two histories that differ only in keys of fetches, and in the signature and the values of parameters
that are given with a start, show the same. -/
theorem histories_show_no_secrets (echo : Echo) (moves moves' : List (Time.Instant × Move))
    (alike : moves.map (Prod.map id Move.masked) = moves'.map (Prod.map id Move.masked)) :
    (start echo).history? issuer moves = (start echo).history? issuer moves' := by
  calc (start echo).history? issuer moves
      = (start echo).masked.history? issuer (moves.map (Prod.map id Move.masked)) :=
        (history?_masked issuer (start echo) moves).symm
    _ = (start echo).masked.history? issuer (moves'.map (Prod.map id Move.masked)) := by rw [alike]
    _ = (start echo).history? issuer moves' := history?_masked issuer (start echo) moves'

def sampleMoves (key : String) (language : Value) : List (Time.Instant × Move) :=
  let moves : List Move :=
    [.happen (.setConditions [⟨0, "door"⟩]), .happen (.setLogic ⟨.every, none⟩),
      .happen (.setActions [.fetch ⟨1, "https://example.org", "door", "", some key, [], []⟩]),
      .happen (.start ⟨none, .str key, [("lang", language)]⟩), .issue, .happen .next,
      .happen (.matched 0), .execute, .answer, .ask "GET" "/api/logs"]
  moves.map fun move => (⟨0, 0⟩, move)

theorem sampleMoves_masked (key key' : String) (language language' : Value) :
    (sampleMoves key language).map (Prod.map id Move.masked) =
      (sampleMoves key' language').map (Prod.map id Move.masked) := rfl

def sampleTrail? (key : String) (language : Value) : Option (List (Shown × Site)) :=
  let identity : Signer.Identity := ⟨"1", String.ofList ("0x04".toList ++ List.replicate 128 '0'), "0x"⟩
  (start ⟨0, none⟩).trail? (fun _ => .ok identity) (sampleMoves key language)

theorem sampleMoves_show_no_secrets :
    (sampleTrail? "first" (.str "de")).isSome ∧
      (sampleTrail? "first" (.str "de")).map
          (List.map fun stop => stop.2.process.request?.map Circuit.Request.params) ≠
        (sampleTrail? "second" (.int 3)).map
          (List.map fun stop => stop.2.process.request?.map Circuit.Request.params) ∧
      (sampleTrail? "first" (.str "de")).map (List.map (Prod.map id seen)) =
        (sampleTrail? "second" (.int 3)).map (List.map (Prod.map id seen)) := by
  refine ⟨by decide +kernel, by decide +kernel, ?_⟩
  exact histories_show_no_secrets _ _ (sampleMoves "first" (.str "de")) (sampleMoves "second" (.int 3))
    (sampleMoves_masked ..)

end Site

end Tripwire.Rehearsal
