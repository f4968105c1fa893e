import Tripwire.Proofs.Script.Fetches

/-!
# What scripts look up

The keys that rendering looks up are the keys that the parameters have. Code of custom routines stands in the text
as it is, and what it looks up is its own affair.
-/
namespace Tripwire.Script
open Place

variable {r : Routine} {s : Script} {a : Action} {text more : List Char} {wanted wanted' : List (List Char)}
  {found : List (Mark × List Char)}

theorem takeWhile_of_mem {key : List Char} (closed : ']' ∈ key) (rest : List Char) :
    (key ++ rest).takeWhile (· ≠ ']') = key.takeWhile (· ≠ ']') := by
  obtain ⟨front, back, rfl, fresh⟩ := List.eq_append_cons_of_mem closed
  have ends (more : List Char) : (front ++ ']' :: more).takeWhile (· ≠ ']') = front := by
    rw [List.takeWhile_append_of_pos fun c mem => decide_eq_true (ne_of_mem_of_not_mem mem fresh)]
    simp
  rw [List.append_assoc, List.cons_append, ends, ends]

theorem lookups_append (closed : ∀ key ∈ behind keyMark ((code []).openings text), ']' ∈ key)
    (rest : List Char) : lookups (text ++ rest) = lookups text ++
      (behind keyMark (((code []).after text).openings rest)).map (·.takeWhile (· ≠ ']')) := by
  rw [lookups, openings_append, behind_append, behind_followed, List.map_append, List.map_map, lookups]
  congr 1
  exact List.map_congr_left fun key mem => takeWhile_of_mem (closed key mem) rest

/-- A text that looks up these keys, whatever follows it. -/
def Looks (text : List Char) (keys : List (List Char)) : Prop :=
  ∀ rest, lookups (text ++ rest) = keys ++ lookups rest

theorem looks_of_reads (reads : Reads (code []) text found (code []))
    (closed : ∀ key ∈ behind keyMark found, ']' ∈ key) :
    Looks text ((behind keyMark found).map (·.takeWhile (· ≠ ']'))) := by
  have same := reads.behind (m := keyMark) (by decide)
  intro rest
  rw [lookups_append (same ▸ closed), reads.after, lookups, same]
  rfl

theorem Reads.looks (reads : Reads (code []) text [] (code [])) : Looks text [] :=
  looks_of_reads reads (List.forall_mem_nil _)

namespace Looks

theorem append (first : Looks text wanted) (second : Looks more wanted') :
    Looks (text ++ more) (wanted ++ wanted') := by
  intro rest
  rw [List.append_assoc, first, second, List.append_assoc]

theorem line (looks : Looks text wanted) : Looks ('\n' :: text) wanted := looks

theorem lookups_eq (looks : Looks text wanted) : lookups text = wanted := by
  have whole := looks []
  rwa [List.append_nil, show lookups [] = [] from rfl, List.append_nil] at whole

theorem flatMap {routines : List Routine} {keys : Routine → List (List Char)}
    (looks : ∀ r ∈ routines, Looks r.text (keys r)) :
    Looks (routines.flatMap fun r => '\n' :: r.text) (routines.flatMap keys) := by
  induction routines with
  | nil => exact fun _ => rfl
  | cons r routines ih =>
      obtain ⟨here, looks⟩ := List.forall_mem_cons.mp looks
      exact here.line.append (ih looks)

end Looks

theorem lookups_chars {keys : Routine → List (List Char)} (looks : ∀ r ∈ s.routines, Looks r.text (keys r))
    (driver : ∀ name ∈ s.driver, Named name.toList) : lookups s.chars = s.routines.flatMap keys := by
  have ending : Looks ('\n' :: driverText s.driver) [] := (reads_driver driver).looks.line
  have whole := (reads_prelude.looks.append (Looks.flatMap looks)).append ending
  rw [chars, whole.lookups_eq, List.append_nil, List.nil_append]

/-- Code that leaves no quote and no lookup open. -/
structure Closed (text : List Char) : Prop where
  outside : ∃ word, (code []).after text = code word
  keys : ∀ key ∈ behind keyMark ((code []).openings text), ']' ∈ key

theorem Closed.looks (closed : Closed text) : Looks (text ++ ['\n']) (lookups text) := by
  obtain ⟨word, outside⟩ := closed.outside
  intro rest
  rw [List.append_assoc, lookups_append closed.keys, outside]
  rfl

theorem closed_nil : Closed [] := ⟨⟨[], rfl⟩, List.forall_mem_nil _⟩

def Routine.keys (r : Routine) : List (List Char) :=
  if r.isAuthenticated then [Text.quoted r.name.toList] else []

def Routine.lookups (r : Routine) : List (List Char) :=
  match r.body with
  | .custom given => Script.lookups given.toList
  | _ => r.keys

def Routine.withoutCode (r : Routine) : Routine :=
  match r.body with
  | .custom _ => { r with body := .custom "" }
  | _ => r

theorem looks_routine {name : String} (kind : Action.Kind) (priority : Nat) {body : Body}
    (named : Named name.toList) (looks : Looks (bodyText name.toList body) wanted) :
    Looks (Routine.mk name kind priority body).text wanted := by
  have back : Reads (code []) "\x7d;\n".toList [] (code []) := by decide
  have whole := (named.reads_front.looks.append looks).append back.looks
  rwa [List.nil_append, List.append_nil] at whole

theorem looks_custom {name given : String} (kind : Action.Kind) (priority : Nat) (named : Named name.toList)
    (closed : Closed given.toList) :
    Looks (Routine.mk name kind priority (.custom given)).text (lookups given.toList) :=
  looks_routine kind priority named closed.looks

theorem takeWhile_quoted {name : List Char} (named : Named name) (rest : List Char) :
    (Text.quoted name ++ ']' :: rest).takeWhile (· ≠ ']') = Text.quoted name := by
  have inner : ∀ c ∈ Text.quoted name, c ≠ ']' := by
    rw [Text.quoted_of_isAlphanum named.letters]
    have name : ∀ c ∈ name ++ ['"'], c ≠ ']' := List.forall_mem_append.mpr ⟨named.ne (by decide), by simp⟩
    exact List.forall_mem_cons.mpr ⟨by decide, name⟩
  rw [List.takeWhile_append_of_pos fun c mem => decide_eq_true (inner c mem)]
  simp

theorem Fetch.looks (f : Fetch) : Looks f.routine.text f.routine.keys := by
  obtain ⟨rest, found⟩ := f.behind_keyMark
  have looks := looks_of_reads f.reads_text
  rw [found] at looks
  show Looks f.routine.text (if f.authenticated then [Text.quoted f.name] else [])
  cases secret : f.authenticated with
  | false =>
      rw [secret] at looks
      exact looks (List.forall_mem_nil _)
  | true =>
      rw [secret] at looks
      have looks := looks (by simp)
      rwa [if_pos rfl, List.map_singleton, takeWhile_quoted f.named] at looks

theorem sender_of_ofAction {a : ContractAction} {t : Contract.Transaction}
    (made : Contract.Transaction.ofAction a = .ok t) :
    t.sender = Contract.Transaction.senderPlaceholder := by
  unfold Contract.Transaction.ofAction at made
  split at made
  · cases made
  split at made
  · cases made
  split at made
  · cases made
  · obtain rfl := Except.ok.inj made
    rfl

theorem looks_made (made : Routine.ofAction a = .ok r)
    (closed : ∀ given, r.body = .custom given → Closed given.toList) : Looks r.text r.lookups := by
  cases a with
  | custom a =>
      obtain rfl := Except.ok.inj made
      exact looks_custom .custom a.priority (named_unitName .custom a.priority) (closed _ rfl)
  | fetch a =>
      obtain rfl := Except.ok.inj ((Fetch.ofAction_fetch a).symm.trans made)
      exact Fetch.looks _
  | contract a =>
      obtain ⟨t, ofAction, rfl⟩ := Contract.map_eq_ok_iff.mp made
      have named := named_unitName .contract a.priority
      exact looks_routine .contract a.priority named (named.reads_contract (sender_of_ofAction ofAction)).looks

theorem looks_withoutCode (made : Routine.ofAction a = .ok r) : Looks r.withoutCode.text r.withoutCode.keys := by
  cases a with
  | custom a =>
      obtain rfl := Except.ok.inj made
      exact looks_custom .custom a.priority (named_unitName .custom a.priority) closed_nil
  | fetch a =>
      obtain rfl := Except.ok.inj ((Fetch.ofAction_fetch a).symm.trans made)
      exact Fetch.looks _
  | contract a =>
      obtain ⟨t, -, rfl⟩ := Contract.map_eq_ok_iff.mp made
      exact looks_made (a := .contract a) made nofun

/-- The script as rendering writes it by itself, with the code of custom routines left out. -/
def withoutCode (s : Script) : Script := { s with routines := s.routines.map Routine.withoutCode }

def keyNames (s : Script) : List String :=
  match s.params.lookup apiKeysParam with
  | some (.map entries) => entries.map Prod.fst
  | _ => []

theorem keyNames_eq (s : Script) : s.keyNames = s.apiKeys.map Prod.fst := by
  unfold keyNames params
  cases s.apiKeys with
  | nil => rfl
  | cons key keys => simp

theorem params_name : ∀ param ∈ s.params, param.1 = apiKeysParam := by
  unfold params
  split
  · exact List.forall_mem_nil _
  · exact List.forall_mem_singleton.mpr rfl

theorem Routine.keys_withoutCode (r : Routine) : r.withoutCode.keys = r.keys := by
  obtain ⟨name, kind, priority, body⟩ := r
  cases body <;> rfl

theorem flatMap_keys (routines : List Routine) : routines.flatMap Routine.keys =
    (routines.filter Routine.isAuthenticated).map fun r => Text.quoted r.name.toList := by
  induction routines with
  | nil => rfl
  | cons r routines ih =>
      rw [List.flatMap_cons, ih, Routine.keys]
      cases secret : r.isAuthenticated <;> simp [secret]

namespace WellFormed

theorem named_driver (wellFormed : WellFormed s) : ∀ name ∈ s.driver, Named name.toList := by
  rw [wellFormed.driven]
  refine List.forall_mem_map.mpr fun r mem => ?_
  rw [wellFormed.named mem]
  exact named_unitName r.kind r.priority

theorem keys_perm (wellFormed : WellFormed s) :
    (s.routines.flatMap Routine.keys).Perm (s.keyNames.map fun name => Text.quoted name.toList) := by
  have keyed := (wellFormed.keyed.map fun name => Text.quoted name.toList).symm
  rw [List.map_map, ← keyNames_eq] at keyed
  rwa [flatMap_keys]

theorem lookups_withoutCode (wellFormed : WellFormed s) :
    (lookups s.withoutCode.chars).Perm (s.keyNames.map fun name => Text.quoted name.toList) := by
  have looks : ∀ r ∈ s.withoutCode.routines, Looks r.text r.keys := by
    refine List.forall_mem_map.mpr fun r mem => ?_
    obtain ⟨a, made⟩ := wellFormed.made r mem
    exact looks_withoutCode made
  rw [lookups_chars looks wellFormed.named_driver, withoutCode, List.flatMap_map]
  simp only [Routine.keys_withoutCode]
  exact wellFormed.keys_perm

theorem lookups_eq (wellFormed : WellFormed s)
    (closed : ∀ r ∈ s.routines, ∀ given, r.body = .custom given → Closed given.toList) :
    lookups s.chars = s.routines.flatMap Routine.lookups := by
  refine lookups_chars (fun r mem => ?_) wellFormed.named_driver
  obtain ⟨a, made⟩ := wellFormed.made r mem
  exact looks_made made (closed r mem)

theorem calls_driver (wellFormed : WellFormed s) : calls (driverText s.driver) =
    [] :: "all".toList :: s.routines.map (fun r => r.name.toList) ++
      ["setResponse".toList, "stringify".toList, driverName.toList] := by
  rw [Script.calls_driver wellFormed.named_driver, wellFormed.driven, List.map_map]
  rfl

theorem count_calls (wellFormed : WellFormed s) (mem : r ∈ s.routines) :
    (calls (driverText s.driver)).count r.name.toList = 1 := by
  have named : Named r.name.toList := by
    rw [wellFormed.named mem]
    exact named_unitName r.kind r.priority
  have names : (s.routines.map fun r => r.name.toList).Nodup := by
    have texts := wellFormed.nodup_names.map (f := String.toList) fun _ _ => String.toList_inj.mp
    rwa [List.map_map] at texts
  have once := List.count_eq_one_of_mem names (List.mem_map_of_mem mem)
  have front : [[], "all".toList].count r.name.toList = 0 := named.count_eq_zero (by decide)
  have back : ["setResponse".toList, "stringify".toList, driverName.toList].count r.name.toList = 0 :=
    named.count_eq_zero (by decide)
  rw [wellFormed.calls_driver]
  change ([[], "all".toList] ++ s.routines.map (fun r => r.name.toList) ++
    ["setResponse".toList, "stringify".toList, driverName.toList]).count r.name.toList = 1
  rw [List.count_append, List.count_append, front, once, back]

end WellFormed

/-- How the parts of a script, its text and its parameters belong together. The driver opens a round bracket only
for its own parameters, for what it calls, and for the call of itself. -/
structure Represented (s : Script) : Prop where
  priorities : (s.routines.map Routine.priority).Nodup
  named : ∀ r ∈ s.routines, r.name = r.kind.text ++ toString r.priority
  names : (s.routines.map Routine.name).Nodup
  bodies : ∀ r ∈ s.routines, r.body.kind = r.kind
  driver : s.driver = s.routines.map Routine.name
  called : calls (driverText s.driver) =
    [] :: "all".toList :: s.routines.map (fun r => r.name.toList) ++
      ["setResponse".toList, "stringify".toList, driverName.toList]
  once : ∀ r ∈ s.routines, (calls (driverText s.driver)).count r.name.toList = 1
  keys : (s.apiKeys.map Prod.fst).Perm ((s.routines.filter Routine.isAuthenticated).map Routine.name)
  params : ∀ param ∈ s.params, param.1 = apiKeysParam
  lookedUp : (lookups s.withoutCode.chars).Perm (s.keyNames.map fun name => Text.quoted name.toList)
  whole : (∀ r ∈ s.routines, ∀ given, r.body = .custom given → Closed given.toList) →
    lookups s.chars = s.routines.flatMap Routine.lookups

theorem Reachable.represented (reachable : Reachable s) : Represented s := by
  have wellFormed := reachable.wellFormed
  constructor
  case priorities => exact wellFormed.apart
  case named =>
    intro r mem
    rw [wellFormed.named mem, Action.Kind.unitName_eq]
  case names => exact wellFormed.nodup_names
  case bodies =>
    intro r mem
    obtain ⟨a, made⟩ := wellFormed.made r mem
    obtain ⟨-, kind, -, body⟩ := ofAction_eq_ok made
    rw [body, kind]
  case driver => exact wellFormed.driven
  case called => exact wellFormed.calls_driver
  case once => exact fun r mem => wellFormed.count_calls mem
  case keys => exact wellFormed.keyed
  case params => exact params_name
  case lookedUp => exact wellFormed.lookups_withoutCode
  case whole => exact wellFormed.lookups_eq

theorem sampleGrown_represented : Represented sampleGrown ∧ sampleGrown.keyNames = ["fetch2"] :=
  ⟨reachable_sampleGrown.represented, by decide⟩

def sampleGhost : Script where
  routines := [{ name := "custom1", kind := .custom, priority := 1, body := .custom "apiKeys[\"ghost\"]" }]
  driver := ["custom1"]
  apiKeys := []

theorem sampleGhost_without_key : Reachable sampleGhost ∧
    ¬∀ key ∈ lookups sampleGhost.chars, ∃ name ∈ sampleGhost.keyNames, key = Text.quoted name.toList := by
  have sorted : sortActions [.custom ⟨1, "apiKeys[\"ghost\"]"⟩] = [.custom ⟨1, "apiKeys[\"ghost\"]"⟩] :=
    sortActions_eq (by decide) (by decide) (.refl _)
  have compiled : empty.compile [.custom ⟨1, "apiKeys[\"ghost\"]"⟩] = .ok ⟨sampleGhost, ["custom1"]⟩ := by
    rw [compile, sorted]
    decide +kernel
  have reachable : Reachable sampleGhost := .compile .empty compiled
  have closed : Closed "apiKeys[\"ghost\"]".toList := ⟨⟨[], by decide⟩, by decide⟩
  have given : lookups "apiKeys[\"ghost\"]".toList = ["\"ghost\"".toList] := by decide
  have whole : lookups sampleGhost.chars = ["\"ghost\"".toList] := by
    rw [reachable.wellFormed.lookups_eq, ← given]
    · rfl
    · rintro r mem _ body
      obtain rfl := List.mem_singleton.mp mem
      cases body
      exact closed
  refine ⟨reachable, fun keyed => ?_⟩
  obtain ⟨name, none, -⟩ := keyed "\"ghost\"".toList (whole ▸ List.mem_singleton_self _)
  exact absurd none (List.not_mem_nil)

end Tripwire.Script
