import Tripwire.Proofs.Circuit.Exhaustion
import Tripwire.Proofs.Circuit.Lifecycle
import Tripwire.Proofs.Script.Increments
import Tripwire.Proofs.Value.Fields

/-!
# Requests

What the executor is handed belongs together: code, digest and parameters come from one compiled script and
from the session, whatever is registered meanwhile. Later requests have the routines of the earlier ones, in
their order, and perhaps more.
-/
namespace Tripwire.Circuit

variable {c c' : Circuit} {script : Script} {now : Time.Instant} {event : Event}

/-! ## The parts of a request -/

/-- What a request has of a script and a session. Of several values that a session has for a name the last
counts. -/
structure Snapshot (script : Script) (session : Session) (request : Request) : Prop where
  code : request.code = script.render
  contentHash : request.contentHash =
    String.ofList (Text.Hex.write (Digest.Sha256.hash (Bytes.ofText request.code)))
  authSig : request.authSig = session.authSig
  publicKey : request.params.lookup "publicKey" = some (.str session.publicKey)
  given : ∀ name value, name ≠ "publicKey" → session.params.reverse.lookup name = some value →
    request.params.lookup name = some value
  keys : session.params.reverse.lookup "apiKeys" = none → script.apiKeys ≠ [] →
    request.params.lookup "apiKeys" =
      some (.map (script.apiKeys.map fun key => (key.1, .str key.2)))
  others : ∀ name ∈ request.params.map Prod.fst, name = "publicKey" ∨
    name ∈ session.params.map Prod.fst ∨ (name = "apiKeys" ∧ script.apiKeys ≠ [])
  once : (request.params.map Prod.fst).Nodup

theorem params_of_keys (keyed : script.apiKeys ≠ []) :
    script.params = [("apiKeys", .map (script.apiKeys.map fun key => (key.1, .str key.2)))] := by
  unfold Script.params
  rw [if_neg (by simpa using keyed)]
  rfl

theorem mem_names_params {name : String} (mem : name ∈ script.params.map Prod.fst) :
    name = "apiKeys" ∧ script.apiKeys ≠ [] := by
  by_cases keyless : script.apiKeys = []
  · simp [Script.params, keyless] at mem
  · rw [params_of_keys keyless] at mem
    exact ⟨by simpa using mem, keyless⟩

theorem lookup_requestParams (script : Script) (session : Session) (name : String) :
    (requestParams script session).lookup name =
      if name = "publicKey" then some (.str session.publicKey)
      else (session.params.reverse.lookup name).or (script.params.reverse.lookup name) := by
  rw [requestParams, Value.lookup_sortFields, List.reverse_append, List.reverse_append,
    List.lookup_append, List.lookup_append, List.reverse_singleton, List.lookup_cons]
  by_cases key : name = "publicKey"
  · rw [if_pos key, key, beq_self_eq_true, Option.some_or]
  · rw [if_neg key, beq_false_of_ne key, List.lookup_nil, Option.none_or]

theorem mem_names_requestParams {session : Session} {name : String}
    (mem : name ∈ (requestParams script session).map Prod.fst) :
    name ∈ script.params.map Prod.fst ∨ name ∈ session.params.map Prod.fst ∨ name = "publicKey" := by
  have mem := Value.mem_names_sortFields mem
  simpa only [List.map_append, List.mem_append, List.map_cons, List.map_nil, List.mem_singleton,
    or_assoc] using mem

theorem snapshot_requestOf (script : Script) (session : Session) :
    Snapshot script session (requestOf script session) := by
  constructor
  case code | contentHash | authSig => rfl
  case publicKey =>
    show (requestParams script session).lookup "publicKey" = _
    rw [lookup_requestParams, if_pos rfl]
  case given =>
    intro name value other given
    show (requestParams script session).lookup name = _
    rw [lookup_requestParams, if_neg other, given, Option.some_or]
  case keys =>
    intro ungiven keyed
    show (requestParams script session).lookup "apiKeys" = _
    rw [lookup_requestParams, if_neg (by decide), ungiven, Option.none_or, params_of_keys keyed]
    rfl
  case others =>
    intro name mem
    rcases mem_names_requestParams mem with own | given | key
    · exact .inr (.inr (mem_names_params own))
    · exact .inr (.inl given)
    · exact .inl key
  case once => exact (Value.sorted_sortFields _).nodup

/-! ## Scripts that grow -/

inductive Rewrites (s : Script) : Event → Script → Prop where
  | keep (event : Event) : Rewrites s event s
  | grow {actions : List Action} {compiled : Script.Compiled}
      (made : s.compile actions = .ok compiled) : Rewrites s (.setActions actions) compiled.script

theorem setActions_rewrites (c : Circuit) (now : Time.Instant) (actions : List Action) :
    Rewrites c.script (.setActions actions) (c.setActions now actions).1.script := by
  unfold setActions
  split
  · rename_i compiled made
    rw [refresh_eq]
    exact .grow made
  · exact .keep _

theorem Operation.rewrites (operation : Operation now c event c') :
    Rewrites c.script event c'.script := by
  cases operation with
  | setConditions watchers =>
      obtain ⟨status, same⟩ := setConditions_eq c watchers
      rw [same]
      exact .keep _
  | setActions actions => exact setActions_rewrites c now actions
  | _ => exact .keep _

namespace Rewrites
variable {s s' : Script}

theorem reachable (rewrites : Rewrites s event s') (reachable : Script.Reachable s) :
    Script.Reachable s' := by
  cases rewrites with
  | keep => exact reachable
  | grow made => exact .compile reachable made

theorem isPrefix (rewrites : Rewrites s event s') : s.routines <+: s'.routines := by
  cases rewrites with
  | keep => exact List.prefix_refl _
  | grow made =>
      obtain ⟨-, fresh, -, rfl⟩ := Script.compile_eq_ok_iff.mp made
      exact ⟨fresh.map Prod.snd, Script.routines_extend.symm⟩

end Rewrites

namespace Process

variable {p q : Process} {stages earlier later : List Stage} {s : Stage}

theorem Step.rewrites (step : Step now p event q) :
    Rewrites p.circuit.script event q.circuit.script := by
  cases step with
  | operate progress operation => exact operation.rewrites
  | forgo progress options begun =>
      obtain ⟨-, -, log, rfl⟩ := begin_over begun
      exact .keep _
  | request progress begun keyless =>
      obtain ⟨-, -, -, rfl⟩ := begin_running begun
      exact .keep _
  | @enter c _ options key progress begun keyed =>
      obtain ⟨-, -, -, rfl⟩ := begin_running begun
      obtain ⟨log, session?, status, same⟩ :=
        openSession_frame { c with status := .running } now options key
      rw [same]
      exact .keep _
  | @issue c contentHash options identity =>
      obtain ⟨log, session?, status, same⟩ :=
        openSession_frame (c.write now (.identityIssued identity)) now options identity.publicKey
      rw [same]
      exact .keep _
  | report observes report =>
      obtain ⟨satisfied, log, rfl⟩ := report.frame
      exact .keep _
  | release release =>
      obtain ⟨log, rfl⟩ := release.frame
      exact .keep _
  | @answer c cycle contentHash flying answer =>
      cases answer with
      | ok response =>
          obtain ⟨log, finished⟩ := finishRun_ok c now contentHash response
          rw [finished]
          exact .keep _
      | error failure => exact .keep _
  | _ => exact .keep _

theorem Course.reachable (course : Course .new stages p) : Script.Reachable p.circuit.script := by
  induction course with
  | refl => exact .empty
  | step _ taken ih => exact (step_of_step? taken).rewrites.reachable ih

theorem Course.isPrefix (course : Course p stages q) :
    p.circuit.script.routines <+: q.circuit.script.routines := by
  induction course with
  | refl => exact List.prefix_refl _
  | step _ taken ih => exact ih.trans (step_of_step? taken).rewrites.isPrefix

/-! ## The session -/

def Launched (stages : List Stage) (options : Options) : Prop :=
  ∃ s ∈ stages, s.event = .start options ∧ s.launches = true

def Keyed (stages : List Stage) (options : Options) (key : String) : Prop :=
  options.publicKey? = some key ∨ options.publicKey? = none ∧
    ∃ s ∈ stages, ∃ identity, s.event = .issued (.ok identity) ∧ identity.publicKey = key

structure Opened (stages : List Stage) (session : Session) : Prop where
  launched : ∃ options, Launched stages options ∧ Keyed stages options session.publicKey ∧
    session.authSig = options.authSig ∧ session.params = options.params
  checked : Signer.checkPublicKey session.publicKey = .ok ()

theorem Launched.snoc {options : Options} (launched : Launched stages options) (s : Stage) :
    Launched (stages ++ [s]) options := by
  obtain ⟨t, member, launches⟩ := launched
  exact ⟨t, List.mem_append_left _ member, launches⟩

theorem Opened.snoc {session : Session} (opened : Opened stages session) (s : Stage) :
    Opened (stages ++ [s]) session := by
  obtain ⟨⟨options, launched, keyed, same⟩, checked⟩ := opened
  refine ⟨⟨options, launched.snoc s, ?_, same⟩, checked⟩
  rcases keyed with given | ⟨keyless, t, member, issued⟩
  · exact .inl given
  · exact .inr ⟨keyless, t, List.mem_append_left _ member, issued⟩

def past (p : Process) : Bool :=
  match p.progress with
  | .unstarted | .opening .. => false
  | .between _ | .cycling _ | .ended _ => true

/-- How a process came to its session. Before it is opened there is none. -/
structure Seated (stages : List Stage) (p : Process) : Prop where
  closed : p.past = false → p.circuit.session? = none
  opening : ∀ contentHash options, p.progress = .opening contentHash options →
    Launched stages options ∧ options.publicKey? = none
  opened : ∀ session, p.circuit.session? = some session → Opened stages session

theorem seated_new : Seated [] .new := ⟨fun _ => rfl, nofun, nofun⟩

theorem Seated.snoc (seated : Seated stages p) (s : Stage)
    (same : q.circuit.session? = p.circuit.session?) (past : q.past = true) :
    Seated (stages ++ [s]) q := by
  constructor
  case closed =>
    intro before
    simp [past] at before
  case opening =>
    intro contentHash options opening
    simp [Process.past, opening] at past
  case opened =>
    intro session present
    exact (seated.opened session (same ▸ present)).snoc s

theorem Seated.operate {c c' : Circuit} {progress : Progress} (seated : Seated stages ⟨c, progress⟩)
    (s : Stage) (operation : Operation now c event c') :
    Seated (stages ++ [s]) ⟨c', progress⟩ := by
  obtain ⟨-, -, -, same⟩ := operation.frame
  constructor
  case closed => exact fun before => same.trans (seated.closed before)
  case opening =>
    intro contentHash options opening
    obtain ⟨launched, keyless⟩ := seated.opening contentHash options opening
    exact ⟨launched.snoc s, keyless⟩
  case opened =>
    intro session present
    exact (seated.opened session (same.symm.trans present)).snoc s

theorem seated_openSession {options : Options} {key : String} (none : c.session? = none)
    (launched : Launched stages options) (keyed : Keyed stages options key) :
    Seated stages (openSession c now options key) := by
  rcases openSession_cases c now options key with ⟨checked, opened⟩ | ⟨fault, refused⟩
  · rw [opened]
    refine ⟨nofun, nofun, ?_⟩
    rintro session ⟨⟩
    exact ⟨⟨options, launched, keyed, rfl, rfl⟩, checked⟩
  · rw [refused]
    refine ⟨nofun, nofun, ?_⟩
    intro session present
    exact absurd (none.symm.trans present) nofun

theorem Step.session_eq (step : Step now p event q) (within : p.past = true) (coherent : Coherent p) :
    q.circuit.session? = p.circuit.session? ∧ q.past = true := by
  cases step with
  | operate progress operation => exact ⟨operation.frame.2.2.2, within⟩
  | forgo progress options begun =>
      obtain ⟨startable, -⟩ := begin_over begun
      obtain rfl := coherent.unstarted_of_isOpen (isOpen_of_startFault? startable)
      cases within
  | request progress begun keyless | enter progress begun keyed =>
      obtain ⟨startable, -⟩ := begin_running begun
      obtain rfl := coherent.unstarted_of_isOpen (isOpen_of_startFault? startable)
      cases within
  | issue | deny => cases within
  | report observes report =>
      obtain ⟨satisfied, log, rfl⟩ := report.frame
      exact ⟨rfl, rfl⟩
  | release release =>
      obtain ⟨log, rfl⟩ := release.frame
      exact ⟨rfl, rfl⟩
  | @answer c cycle contentHash flying answer =>
      cases answer with
      | ok response =>
          obtain ⟨log, finished⟩ := finishRun_ok c now contentHash response
          rw [finished]
          exact ⟨rfl, rfl⟩
      | error failure => exact ⟨rfl, rfl⟩
  | _ => exact ⟨rfl, rfl⟩

theorem Step.seated (step : Step now p event q) (coherent : Coherent p) (seated : Seated stages p) :
    Seated (stages ++ [⟨p, now, event, q⟩]) q := by
  have newest : (⟨p, now, event, q⟩ : Stage) ∈ stages ++ [⟨p, now, event, q⟩] :=
    List.mem_append_right _ (List.mem_singleton_self _)
  -- Past its opening a session stays as it is, so only the steps before that are left.
  by_cases within : p.past = true
  · obtain ⟨same, past⟩ := step.session_eq within coherent
    exact seated.snoc _ same past
  · have none := seated.closed (by simpa using within)
    cases step with
    | operate progress operation => exact seated.operate _ operation
    | forgo progress options begun =>
        obtain ⟨-, -, log, rfl⟩ := begin_over begun
        exact seated.snoc _ rfl rfl
    | request progress begun keyless =>
        have launches := begun
        obtain ⟨-, -, -, rfl⟩ := begin_running begun
        refine ⟨fun _ => none, ?_, ?_⟩
        · rintro _ options ⟨⟩
          exact ⟨⟨_, newest, rfl, by simp [Stage.launches, Stage.beginning?, launches]⟩, keyless⟩
        · intro session present
          exact absurd (none.symm.trans present) (Option.some_ne_none session).symm
    | enter progress begun keyed =>
        have launches := begun
        obtain ⟨-, -, -, rfl⟩ := begin_running begun
        refine seated_openSession none ⟨_, newest, rfl, ?_⟩ (.inl keyed)
        simp [Stage.launches, Stage.beginning?, launches]
    | issue contentHash options identity =>
        obtain ⟨launched, keyless⟩ := seated.opening contentHash options rfl
        refine seated_openSession none (launched.snoc _) (.inr ⟨keyless, _, newest, ?_⟩)
        exact ⟨identity, rfl, rfl⟩
    | deny => exact seated.snoc _ rfl rfl
    | _ => exact absurd rfl within

theorem Course.seated (course : Course .new stages p) : Seated stages p := by
  induction course with
  | refl => exact seated_new
  | step course taken ih => exact (step_of_step? taken).seated course.coherent.1 ih

theorem Course.session_eq (course : Course p stages q) (within : p.past = true)
    (coherent : Coherent p) : q.circuit.session? = p.circuit.session? := by
  have kept : q.circuit.session? = p.circuit.session? ∧ q.past = true ∧ Coherent q := by
    induction course with
    | refl => exact ⟨rfl, within, coherent⟩
    | step course taken ih =>
        obtain ⟨same, past, coherent⟩ := ih
        have step := step_of_step? taken
        obtain ⟨kept, past⟩ := step.session_eq past coherent
        exact ⟨kept.trans same, past, step.coherent coherent⟩
  exact kept.1

/-! ## Requests of a run -/

theorem Step.requested (step : Step now p .call q) :
    ∃ session, p.circuit.session? = some session ∧
      p.request? = some (requestOf p.circuit.script session) ∧
      q.inFlight? = some (requestOf p.circuit.script session).contentHash ∧ p.past = true := by
  cases step with
  | call idle queued requested =>
      obtain ⟨session, opened, rfl⟩ := Option.map_eq_some_iff.mp requested
      exact ⟨session, opened, requested, rfl, rfl⟩
  | operate progress operation => cases operation
  | report observes report => cases report
  | release release => cases release

theorem Course.eq_of_nil (course : Course p [] q) : q = p := by
  generalize none : [] = stages at course
  cases course with
  | refl => rfl
  | step => simp at none

theorem Course.before_eq (course : Course p (s :: later) q) : s.before = p := by
  obtain ⟨middle, first, -⟩ : ∃ middle, Course p ([] ++ [s]) middle ∧ Course middle later q :=
    course.split
  exact first.of_snoc.1.eq_of_nil

theorem Course.onward (course : Course p stages q) (member : s ∈ stages) :
    ∃ later, Course s.before later q := by
  obtain ⟨earlier, later, rfl⟩ := List.append_of_mem member
  obtain ⟨middle, -, rest⟩ := course.split
  obtain rfl := rest.before_eq
  exact ⟨_, rest⟩

/-- Each request that is handed over is a snapshot of one compiled script under the session of the start
that got through. All requests have this session, and the routines of an earlier one come first in each
later one. -/
theorem requests_are_snapshots (course : Course .new stages p) :
    (∀ earlier s later, stages = earlier ++ s :: later → s.event = .call →
      ∃ session request, s.before.circuit.session? = some session ∧ Opened earlier session ∧
        s.before.request? = some request ∧ s.after.inFlight? = some request.contentHash ∧
        Script.Reachable s.before.circuit.script ∧
        Snapshot s.before.circuit.script session request) ∧
    stages.Pairwise fun s t => s.event = .call → t.event = .call →
      t.before.circuit.session? = s.before.circuit.session? ∧
        s.before.circuit.script.routines <+: t.before.circuit.script.routines := by
  constructor
  · rintro earlier s later rfl called
    have step := course.taken (List.mem_append_right earlier List.mem_cons_self)
    rw [called] at step
    obtain ⟨session, present, requested, handed, -⟩ := step.requested
    obtain ⟨middle, before, rest⟩ := course.split
    obtain rfl := rest.before_eq
    exact ⟨session, _, present, before.seated.opened session present, requested, handed,
      before.reachable, snapshot_requestOf _ _⟩
  · induction course with
    | refl => exact .nil
    | @step stages q r now event course taken ih =>
        rw [List.pairwise_append]
        refine ⟨ih, List.pairwise_singleton _ _, ?_⟩
        rintro s earlier t newest called -
        obtain rfl := List.mem_singleton.mp newest
        obtain ⟨later, onward⟩ := course.onward earlier
        have step := course.taken earlier
        rw [called] at step
        obtain ⟨session, present, -, -, past⟩ := step.requested
        exact ⟨onward.session_eq past (course.coherent.2 s earlier).1, onward.isPrefix⟩

def sampleKey : String := String.ofList ("0x04".toList ++ List.replicate 128 '0')

def sampleSession : Session :=
  ⟨sampleKey, .str "signed", [("lang", .str "de"), ("publicKey", .str "mine")]⟩

def sampleRequests : List Event :=
  [.setConditions [⟨0, "door"⟩], .setLogic ⟨.every, none⟩, .setActions [Script.samplePrice],
    .start ⟨none, sampleSession.authSig, sampleSession.params⟩, .issued (.ok ⟨"1", sampleKey, "0x"⟩),
    .next, .matched 0, .setActions [Script.sampleRate], .call, .answered (.ok .null),
    .settled 0 none, .close, .leave, .next, .setActions [Script.sampleReport], .matched 0, .call]

theorem sampleRequests_snapshots :
    ∃ stages p, Course .new stages p ∧ stages.countP Stage.calls = 2 ∧
      ∀ s ∈ stages, s.event = .call → ∃ request, s.before.request? = some request ∧
        request.code = s.before.circuit.script.render ∧
        request.params.lookup "publicKey" = some (.str sampleKey) ∧
        request.params.lookup "lang" = some (.str "de") ∧
        request.params.lookup "apiKeys" = some (.map [("fetch2", .str "secret")]) := by
  have followed : (sample sampleRequests).any fun run =>
      run.1.countP Stage.calls = 2 && run.1.all fun s => !s.calls ||
        (s.before.circuit.session? = some sampleSession &&
          s.before.circuit.script.apiKeys = [("fetch2", "secret")]) := by decide +kernel
  simp only [Option.any_eq_true, Bool.and_eq_true, decide_eq_true_eq, List.all_eq_true] at followed
  obtain ⟨⟨stages, p⟩, sampled, twice, sessions⟩ := followed
  have course := course_of_follow sampled
  refine ⟨stages, p, course, twice, ?_⟩
  intro s member called
  obtain ⟨earlier, later, same⟩ := List.append_of_mem member
  obtain ⟨session, request, present, -, requested, -, -, snapshot⟩ :=
    (requests_are_snapshots course).1 earlier s later same called
  obtain ⟨known, keys⟩ : s.before.circuit.session? = some sampleSession ∧
      s.before.circuit.script.apiKeys = [("fetch2", "secret")] := by
    simpa [Stage.calls, called] using sessions s member
  obtain rfl := Option.some.inj (present.symm.trans known)
  refine ⟨request, requested, snapshot.code, snapshot.publicKey,
    snapshot.given "lang" _ (by decide) (by decide), ?_⟩
  rw [snapshot.keys (by decide) (by simp [keys]), keys]
  rfl

end Process
end Tripwire.Circuit
