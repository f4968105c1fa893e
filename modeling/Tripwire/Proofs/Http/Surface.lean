import Tripwire.Http.Router
import Tripwire.Proofs.Circuit.Trail

/-!
# What can be done over HTTP

A request changes nothing of a circuit, except that a request to stop asks it to. So requests do not disturb
each other's answers either. The log is answered as far as it is held, and a category may be named in capitals.
-/
namespace Tripwire

namespace Log.Category

variable {c letter : Char} {text name : List Char}

theorem lower_of_ascii : ∀ code : Fin 128, ∀ place : Fin 26,
    lower (Char.ofNat code) = Char.ofNat (97 + place) ↔
      Char.ofNat code = Char.ofNat (97 + place) ∨ Char.ofNat code = (Char.ofNat (97 + place)).toUpper := by
  decide +kernel

theorem ascii_letter : ∀ place : Fin 26,
    (Char.ofNat (97 + place)).toNat < 128 ∧ (Char.ofNat (97 + place)).toUpper.toNat < 128 := by
  decide +kernel

theorem lower_eq_iff (small : letter.isLower) : lower c = letter ↔ c = letter ∨ c = letter.toUpper := by
  obtain ⟨place, rfl⟩ : ∃ place : Fin 26, letter = Char.ofNat (97 + place) := by
    delta Char.isLower at small
    rw [Bool.and_eq_true, decide_eq_true_eq, decide_eq_true_eq] at small
    have first : 97 ≤ letter.toNat := UInt32.le_iff_toNat_le.mp small.1
    have last : letter.toNat ≤ 122 := UInt32.le_iff_toNat_le.mp small.2
    refine ⟨⟨letter.toNat - 97, by omega⟩, ?_⟩
    rw [show 97 + (letter.toNat - 97) = letter.toNat by omega, Char.ofNat_toNat]
  by_cases ascii : c.toNat < 128
  · have decided := lower_of_ascii ⟨c.toNat, ascii⟩ place
    rwa [Char.ofNat_toNat] at decided
  · have still : lower c = c := by
      apply if_neg
      rintro ⟨-, last⟩
      have most : c.toNat ≤ 90 := UInt32.le_iff_toNat_le.mp last
      omega
    obtain ⟨low, high⟩ := ascii_letter place
    rw [still]
    refine ⟨.inl, ?_⟩
    rintro (same | same)
    · exact same
    · rw [same] at ascii
      exact absurd high ascii

theorem map_lower_eq_iff (small : ∀ letter ∈ name, letter.isLower) :
    text.map lower = name ↔ List.Forall₂ (fun c letter => c = letter ∨ c = letter.toUpper) text name := by
  induction name generalizing text with
  | nil => simp
  | cons letter name ih =>
      obtain ⟨first, small⟩ := List.forall_mem_cons.mp small
      cases text with
      | nil => simp
      | cons c text => rw [List.map_cons, List.cons.injEq, lower_eq_iff first, ih small, List.forall₂_cons]

def Spelled (text : String) (category : Category) : Prop :=
  List.Forall₂ (fun c letter => c = letter ∨ c = letter.toUpper) text.toList category.text.toList

theorem lookup_names {name : String} {category : Category} :
    names.lookup name = some category ↔ name = category.text := by
  constructor
  · intro found
    have listed : ∀ pair ∈ names, pair.1 = pair.2.text := by decide
    obtain ⟨before, after, same, -⟩ := List.lookup_eq_some_iff.mp found
    exact listed (name, category) (same ▸ List.mem_append_right _ List.mem_cons_self)
  · rintro rfl
    cases category <;> decide

theorem read?_eq_some_iff {text : String} {category : Category} :
    read? text = some category ↔ Spelled text category := by
  have small : ∀ letter ∈ category.text.toList, letter.isLower := by
    cases category <;> exact List.all_eq_true.mp (by decide)
  rw [Spelled, ← map_lower_eq_iff small, read?, lookup_names, ← String.toList_inj, String.toList_ofList]

end Log.Category

namespace Http

open Circuit.Process (Course Stage appended course_of_follow sample sampleStart)

variable {c : Circuit} {method path target : String} {route : Route}

def serveAll (c : Circuit) : List (String × String) → Circuit × List Response
  | [] => (c, [])
  | (method, target) :: rest =>
      let (c, response) := respond c method target
      let (c, responses) := serveAll c rest
      (c, response :: responses)

def asksToStop (request : String × String) : Bool :=
  request.1 = "POST" && (splitTarget request.2).1 = "/api/stop"

theorem ofPath?_eq_stop_iff : Route.ofPath? path = some .stop ↔ path = "/api/stop" := by
  constructor
  · intro found
    have listed : ∀ pair ∈ Route.paths, pair.2 = .stop → pair.1 = "/api/stop" := by decide
    obtain ⟨before, after, same, -⟩ := List.lookup_eq_some_iff.mp found
    exact listed (path, .stop) (same ▸ List.mem_append_right _ List.mem_cons_self) rfl
  · rintro rfl
    decide

theorem asksToStop_iff : asksToStop (method, target) = true ↔
    Route.ofPath? (splitTarget target).1 = some .stop ∧ Route.stop.takes method = true := by
  rw [ofPath?_eq_stop_iff, asksToStop, Bool.and_eq_true, decide_eq_true_eq, decide_eq_true_eq, and_comm,
    Route.takes, decide_eq_true_eq]

theorem circuit_respond (c : Circuit) (method target : String) :
    (respond c method target).1 = { c with stopped := c.stopped || asksToStop (method, target) } := by
  have still (unasked : asksToStop (method, target) ≠ true) :
      c = { c with stopped := c.stopped || asksToStop (method, target) } := by
    rw [Bool.eq_false_iff.mpr unasked, Bool.or_false]
  rw [ne_eq, asksToStop_iff] at still
  unfold respond
  simp only
  split
  · rename_i unknown
    exact still (by simp [unknown])
  · rename_i route found
    cases takes : route.takes method with
    | false => exact still (by rintro ⟨stops, taken⟩; simp_all)
    | true =>
        cases route with
        | stop =>
            rw [asksToStop_iff.mpr ⟨found, takes⟩, Bool.or_true]
            rfl
        | _ => exact still (by simp [found])

theorem respond_stopped (c : Circuit) (stopped : Bool) (method target : String) :
    (respond { c with stopped := stopped } method target).2 = (respond c method target).2 := by
  unfold respond
  simp only
  split
  · rfl
  · rename_i route found
    cases route.takes method with
    | false => rfl
    | true => cases route <;> rfl

theorem serveAll_eq (c : Circuit) (requests : List (String × String)) :
    serveAll c requests =
      ({ c with stopped := c.stopped || requests.any asksToStop },
        requests.map fun request => (respond c request.1 request.2).2) := by
  induction requests generalizing c with
  | nil => simp [serveAll]
  | cons request rest ih =>
      obtain ⟨method, target⟩ := request
      simp only [serveAll, ih, circuit_respond, respond_stopped, List.any_cons, Bool.or_assoc, List.map_cons]

def held (stages : List Stage) : List Log.Entry :=
  ((appended stages).rtake Log.Ring.standardCapacity).map Circuit.Noted.entry

theorem entries_eq {stages : List Stage} {p : Circuit.Process} (course : Course .new stages p)
    (category? : Option Log.Category) :
    p.circuit.entries category? = (held stages).filter fun e => category?.all (· = e.category) := by
  have last : p.circuit.log.toList = (appended stages).rtake Log.Ring.standardCapacity := by
    rw [course.log]
    exact (Log.Ring.foldl_append Log.Ring.standardCapacity (appended stages)).2.2
  rw [Circuit.entries, last]
  rfl

theorem respond_logs {query : List Char} (asked : splitTarget target = ("/api/logs", query)) :
    (respond c "GET" target).2 = logsResponse c query := by
  simp [respond, asked]
  rfl

/-- Requests leave a circuit as it is, except that it is asked to stop if one of them asks for it, and each is
answered as if it was the only one. The log is answered as far as it is held, the oldest entry first, whole or of
one category, whose name may be spelled with capitals. Any other name is refused. -/
theorem requests_only_stop {stages : List Stage} {p : Circuit.Process} (course : Course .new stages p) :
    (∀ requests, serveAll p.circuit requests =
      ({ p.circuit with stopped := p.circuit.stopped || requests.any asksToStop },
        requests.map fun request => (respond p.circuit request.1 request.2).2)) ∧
    ∀ target query, splitTarget target = ("/api/logs", query) →
      (valuesOf "category" (readQuery query) = [] →
        (respond p.circuit "GET" target).2 = ⟨200, .value (.list ((held stages).map Log.Entry.write))⟩) ∧
      ∀ text, valuesOf "category" (readQuery query) = [text] →
        (∀ category, Log.Category.Spelled text category →
          (respond p.circuit "GET" target).2 =
            ⟨200, .value (.list (((held stages).filter (·.category = category)).map Log.Entry.write))⟩) ∧
        ((∀ category, ¬Log.Category.Spelled text category) →
          (respond p.circuit "GET" target).2 =
            ⟨400, .value (.map [("error", .str ("unknown log category `" ++ text ++ "`"))])⟩) := by
  refine ⟨serveAll_eq p.circuit, fun target query asked => ?_⟩
  rw [respond_logs asked]
  refine ⟨fun unnamed => ?_, fun text named => ⟨fun category spelled => ?_, fun unknown => ?_⟩⟩
  · simp [logsResponse, unnamed, entries_eq course]
  · simp [logsResponse, named, Log.Category.read?_eq_some_iff.mpr spelled, entries_eq course, eq_comm]
  · have unread : Log.Category.read? text = none := by
      cases read : Log.Category.read? text with
      | none => rfl
      | some category => exact absurd (Log.Category.read?_eq_some_iff.mp read) (unknown category)
    simp only [logsResponse, named, unread]
    rfl

theorem sampleRequests_only_stop :
    ∃ stages p, Course .new stages p ∧
      (held stages).map (·.category) = [.error, .condition, .condition] ∧ p.circuit.stopped = false ∧
      (serveAll p.circuit [("DELETE", "/api/stop"), ("POST", "/api/stop?now"), ("GET", "/api/status")]).1 =
        { p.circuit with stopped := true } ∧
      (respond p.circuit "GET" "/api/logs?category=E%52roR").2 =
        ⟨200, .value (.list (((held stages).filter (·.category = .error)).map Log.Entry.write))⟩ ∧
      (respond p.circuit "GET" "/api/logs?category=").2 =
        ⟨400, .value (.map [("error", .str "unknown log category ``")])⟩ := by
  have followed : (sample (.start ⟨none, .null, []⟩ :: sampleStart ++ [.next, .matched 0])).any fun run =>
      (held run.1).map (·.category) = [.error, .condition, .condition] && run.2.circuit.stopped = false := by
    decide +kernel
  simp only [Option.any_eq_true, Bool.and_eq_true, decide_eq_true_eq] at followed
  obtain ⟨⟨stages, p⟩, sampled, categories, going⟩ := followed
  have course := course_of_follow sampled
  obtain ⟨served, logs⟩ := requests_only_stop course
  obtain ⟨-, spelled⟩ := logs "/api/logs?category=E%52roR" _ rfl
  obtain ⟨-, empty⟩ := logs "/api/logs?category=" _ rfl
  refine ⟨stages, p, course, categories, going, ?_, ?_, ?_⟩
  · rw [served, going]
    rfl
  · apply (spelled "ERroR" (by decide +kernel)).1
    exact Log.Category.read?_eq_some_iff.mp (by decide)
  · refine (empty "" (by decide +kernel)).2 fun category spelled => ?_
    cases category <;> cases spelled

end Http
end Tripwire
