import Tripwire.Proofs.Script.Pieces
import Tripwire.Proofs.Script.Responses

/-!
# The text of fetches

The text of a fetch tells the data that it was written for. It calls for the url in one place and for the
response path in one place, and they stand there whole.
-/
namespace Tripwire.Script
open Place Value

def argumentsOf (behind : List Char) : List (List Char) :=
  match splitTop ')' .start behind with
  | some (inside, _) => (fieldsOf inside).map Text.trim
  | none => []

def arguments (function : String) (text : List Char) : List (List (List Char)) :=
  (behind ⟨function.toList, .round⟩ ((code []).openings text)).map argumentsOf

theorem argumentsOf_balanced {inside : List Char} (balanced : Balanced [] inside) (rest : List Char) :
    argumentsOf (inside ++ ')' :: rest) = (fieldsOf inside).map Text.trim := by
  have parted := balanced.splitTop_closing .round rest
  rw [Bracket.closing] at parted
  rw [argumentsOf, parted]

/-- What the routine of a fetch is written for. -/
structure Fetch where
  priority : Nat
  url : String
  authenticated : Bool
  responsePath : String
  signConditions : List Action.SignCondition
  toSign : List Nat

namespace Fetch

def routine (f : Fetch) : Routine where
  name := Action.Kind.fetch.unitName f.priority
  kind := .fetch
  priority := f.priority
  body := .fetch f.url f.authenticated f.responsePath f.signConditions f.toSign

theorem ofAction_fetch (a : FetchAction) :
    Routine.ofAction (.fetch a) =
      .ok (routine ⟨a.priority, a.url, a.apiKey?.isSome, a.responsePath, a.signConditions, a.toSign⟩) :=
  rfl

def name (f : Fetch) : List Char := f.routine.name.toList

def conditionsText (f : Fetch) : List Char :=
  (Value.list (f.signConditions.map Action.SignCondition.write)).text

variable {f g : Fetch}

theorem named (f : Fetch) : Named f.name := named_unitName .fetch f.priority

def front (f : Fetch) : List Char := "const ".toList ++ f.name ++ " = async () => \x7b\n".toList

def fetching : List Char := "  try \x7b\n    const response = await fetch(".toList

def options (f : Fetch) : List Char := if f.authenticated then headersText (Text.quoted f.name) else []

def extracting : List Char :=
  ");\n    const body = await response.json();\n    const value = extractPath(body, ".toList

def checking : List Char := ");\n    const signed = checkSignCondition(value, ".toList

def signing : List Char :=
  ");\n    if (signed) \x7b\n      await ".toList ++ signCall.toList ++
    "(\x7b toSign: new Uint8Array(".toList

def ending (f : Fetch) : List Char :=
  "), publicKey, sigName: ".toList ++ Text.quoted f.name ++
    " \x7d);\n    \x7d\n    ".toList ++ resultsName.toList ++ '[' :: Text.quoted f.name ++
    "] = \x7b value, signed \x7d;\n  \x7d catch (err) \x7b\n    console.log(`".toList ++ f.name ++
    ": $\x7berr.message\x7d`);\n  \x7d\n".toList ++ "\x7d;\n".toList

def back (f : Fetch) : List Char :=
  checking ++ (f.conditionsText ++ (signing ++ ((Value.list (f.toSign.map .ofNat)).text ++ f.ending)))

theorem text_eq (f : Fetch) :
    f.routine.text = f.front ++ (fetching ++ (literal f.url.toList ++ (f.options ++ (extracting ++
      (literal f.responsePath.toList ++ f.back))))) := by
  unfold Routine.text bodyText front back ending options signing
  simp only [routine, List.append_assoc, List.cons_append]
  rfl

theorem reads_fetching : Reads (code []) fetching [(fetchMark, [])] (code []) := .literal (by decide)

def keyed (f : Fetch) : List (Mark × List Char) :=
  if f.authenticated then [(keyMark, Text.quoted f.name ++ "]\x7d` \x7d \x7d".toList)] else []

theorem reads_options (f : Fetch) : Reads (code []) f.options f.keyed (code []) := by
  unfold options keyed headersText
  split
  · have front : Reads (code []) (", \x7b headers: \x7b Authorization: `Bearer $\x7b".toList ++
        apiKeysParam.toList ++ ['[']) [(keyMark, [])] (code []) := by decide
    have back : Reads (code []) "]\x7d` \x7d \x7d".toList [] (code []) := by decide
    have reads := front.append (f.named.reads_quoted.pass _ back)
    rwa [List.append_assoc, List.append_nil] at reads
  · exact .nil

theorem reads_extracting : Reads (code []) extracting [(pathMark, "body, ".toList)] (code []) :=
  .literal (by decide)

theorem reads_ending (f : Fetch) : Reads (code []) f.ending [] (code []) := by
  unfold ending
  simp only [List.append_assoc, List.cons_append]
  refine .pass (code []) (.literal (by decide)) (f.named.reads_quoted.pass _ ?_)
  refine .pass (code []) (.literal (by decide)) (f.named.reads_result ?_)
  refine .pass (code []) (.literal (by decide)) (f.named.reads.pass _ ?_)
  refine .pass (code []) (.literal ?_) (by decide)
  exact .separated (by decide) (by decide) (by decide)

theorem reads_back (f : Fetch) : Reads (code []) f.back [] (code []) := by
  have checking : Reads (code []) checking [] (code []) := .literal (by decide)
  have signing : Reads (code []) signing [] (code []) := by decide
  exact checking.pass _ ((reads_list _).pass _ (signing.pass _ ((reads_list _).pass _ f.reads_ending)))

def found (f : Fetch) : List (Mark × List Char) :=
  (fetchMark, literal f.url.toList ++ (f.options ++ (extracting ++ (literal f.responsePath.toList ++ f.back)))) ::
    (followed (extracting ++ (literal f.responsePath.toList ++ f.back)) f.keyed ++
      [(pathMark, "body, ".toList ++ (literal f.responsePath.toList ++ f.back))])

theorem reads_text (f : Fetch) : Reads (code []) f.routine.text f.found (code []) := by
  have path := reads_extracting.append ((reads_literal f.responsePath.toList).pass _ f.reads_back)
  have url := reads_fetching.append ((reads_literal f.url.toList).pass _ (f.reads_options.append path))
  rw [f.text_eq]
  exact f.named.reads_front.pass _ url

theorem behind_fetchMark (f : Fetch) : behind fetchMark f.found =
    [literal f.url.toList ++ (f.options ++ (extracting ++ (literal f.responsePath.toList ++ f.back)))] := by
  unfold found keyed
  cases f.authenticated <;> rfl

theorem behind_keyMark (f : Fetch) :
    ∃ rest, behind keyMark f.found = if f.authenticated then [Text.quoted f.name ++ ']' :: rest] else [] := by
  unfold found keyed
  cases f.authenticated with
  | false => exact ⟨[], rfl⟩
  | true =>
      have later := List.append_assoc (Text.quoted f.name) "]\x7d` \x7d \x7d".toList
        (extracting ++ (literal f.responsePath.toList ++ f.back))
      exact ⟨_, congrArg ([·]) later⟩

theorem behind_pathMark (f : Fetch) :
    behind pathMark f.found = ["body, ".toList ++ (literal f.responsePath.toList ++ f.back)] := by
  unfold found keyed
  cases f.authenticated <;> rfl

theorem balanced_options (f : Fetch) : Balanced [] f.options := by
  unfold options
  split
  case isFalse => exact .nil
  case isTrue =>
    have inner (c : Char) (mem : c ∈ f.name) : c ≠ '`' ∧ c ≠ '\\' :=
      ⟨f.named.ne (by decide) c mem, f.named.ne (by decide) c mem⟩
    have name : f.name.all fun c => c ≠ '`' ∧ c ≠ '\\' :=
      List.all_eq_true.mpr fun c mem => decide_eq_true (inner c mem)
    have token : Enclosed '`' ("Bearer $\x7bapiKeys[\"".toList ++ (f.name ++ "\"]\x7d".toList)) := by
      apply enclosed_of_all
      rw [List.all_append, List.all_append, name]
      decide
    have blank : Balanced [] [' '] := balanced_of_all (by decide)
    have value : Balanced [] (" Authorization: ".toList ++ _) :=
      (balanced_of_all (by decide)).append (.quoted (q := '`') (by decide) token blank)
    have headers : Balanced [] (" headers: ".toList ++ _) :=
      (balanced_of_all (by decide)).append (.bracketed .curly value blank)
    have options : Balanced [] (", ".toList ++ _) :=
      (balanced_of_all (by decide)).append (.bracketed .curly headers .nil)
    unfold headersText
    rw [Text.quoted_of_isAlphanum f.named.letters]
    simp only [Bracket.opening, Bracket.closing, List.append_assoc, List.cons_append,
      List.nil_append] at options ⊢
    exact options

theorem trim_literal {before : List Char} (blank : Text.Blank before) (s : List Char) :
    Text.trim (before ++ literal s) = literal s :=
  Text.trim_of_blank blank (List.forall_mem_nil _) (by decide) (by decide)

theorem fieldsOf_url (f : Fetch) :
    ∃ more, fieldsOf (literal f.url.toList ++ f.options) = literal f.url.toList :: more := by
  have comma : Halts [','] ',' := .inr ⟨by decide, List.mem_singleton_self _⟩
  have balanced : Balanced [','] (literal f.url.toList ++ []) := balanced_literal _ .nil
  rw [List.append_nil] at balanced
  unfold options
  split
  case isFalse =>
    rw [List.append_nil]
    exact ⟨[], fieldsOf_of_free (balanced.free 0 (.inr comma))⟩
  case isTrue => exact ⟨_, fieldsOf_of_comma (balanced.splitTop_stop comma)⟩

theorem fieldsOf_path (f : Fetch) :
    fieldsOf ("body, ".toList ++ literal f.responsePath.toList) =
      ["body".toList, ' ' :: literal f.responsePath.toList] := by
  have body : Balanced [','] "body".toList := balanced_of_all (by decide)
  have path : Balanced [','] (' ' :: (literal f.responsePath.toList ++ [])) :=
    .plain (by decide) (by decide) (balanced_literal _ .nil)
  rw [List.append_nil] at path
  have fields := fieldsOf_intercalate (List.cons_ne_nil _ _)
    (List.forall_mem_cons.mpr ⟨body, List.forall_mem_singleton.mpr path⟩)
  rw [List.intercalate_cons_cons, List.intercalate_singleton] at fields
  exact fields

theorem arguments_fetch (f : Fetch) :
    ∃ more, arguments "fetch" f.routine.text = [literal f.url.toList :: more] := by
  obtain ⟨more, fields⟩ := f.fieldsOf_url
  have balanced := balanced_literal f.url.toList f.balanced_options
  have closed (rest : List Char) : extracting ++ rest = ')' :: (extracting.tail ++ rest) := rfl
  refine ⟨more.map Text.trim, ?_⟩
  have found : behind ⟨"fetch".toList, .round⟩ _ = _ := (f.reads_text.behind (by decide)).trans f.behind_fetchMark
  rw [arguments, found, List.map_singleton, ← List.append_assoc, closed, argumentsOf_balanced balanced, fields,
    List.map_cons]
  exact congrArg (fun url => [url :: _]) (trim_literal (List.forall_mem_nil _) f.url.toList)

theorem arguments_extractPath (f : Fetch) :
    arguments "extractPath" f.routine.text = [["body".toList, literal f.responsePath.toList]] := by
  have balanced : Balanced [] ("body, ".toList ++ (literal f.responsePath.toList ++ [])) :=
    (balanced_of_all (by decide)).append (balanced_literal _ .nil)
  rw [List.append_nil] at balanced
  have closed : f.back = ')' :: f.back.tail := rfl
  have blank : Text.Blank [' '] := List.all_eq_true.mp (by decide)
  have trimmed := trim_literal blank f.responsePath.toList
  have found : behind ⟨"extractPath".toList, .round⟩ _ = _ :=
    (f.reads_text.behind (by decide)).trans f.behind_pathMark
  rw [arguments, found, List.map_singleton, ← List.append_assoc, closed, argumentsOf_balanced balanced,
    f.fieldsOf_path]
  exact congrArg (fun path => [[_, path]]) trimmed

variable {s t : List Char}

theorem options_append_inj (name : f.name = g.name)
    (same : f.options ++ (extracting ++ s) = g.options ++ (extracting ++ t)) :
    f.authenticated = g.authenticated ∧ s = t := by
  have comma (quotedName rest : List Char) : (headersText quotedName ++ rest).head? = some ',' := rfl
  have closing (rest : List Char) : (extracting ++ rest).head? = some ')' := rfl
  have heads := congrArg List.head? same
  unfold options at same heads
  rw [name] at same heads
  cases keyed : f.authenticated <;> cases keyed' : g.authenticated <;> rw [keyed, keyed'] at same heads
  · exact ⟨rfl, List.append_cancel_left same⟩
  · rw [if_neg Bool.false_ne_true, if_pos rfl, List.nil_append, comma, closing] at heads
    cases heads
  · rw [if_neg Bool.false_ne_true, if_pos rfl, List.nil_append, comma, closing] at heads
    cases heads
  · exact ⟨rfl, List.append_cancel_left (List.append_cancel_left same)⟩

theorem back_inj (same : f.back = g.back) : f.conditionsText = g.conditionsText ∧ f.toSign = g.toSign := by
  obtain ⟨conditions, later⟩ := list_text_append_inj (List.append_cancel_left same)
  obtain ⟨bytes, -⟩ := list_text_append_inj (List.append_cancel_left later)
  exact ⟨conditions, numbers_text_inj.mp bytes⟩

theorem front_append_inj (same : f.front ++ s = g.front ++ t) : f.name = g.name ∧ s = t := by
  have blank (rest : List Char) :
      ∀ c ∈ (" = async () => \x7b\n".toList ++ rest).head?, c.isAlphanum = false := by
    intro c first
    obtain rfl := Option.some.inj first
    decide
  unfold front at same
  simp only [List.append_assoc] at same
  obtain ⟨name, rest⟩ := Text.append_inj_of_class f.named.letters g.named.letters (blank _) (blank _)
    (List.append_cancel_left same)
  exact ⟨name, List.append_cancel_left rest⟩

theorem text_eq_iff : f.routine.text = g.routine.text ↔
    f.routine.name = g.routine.name ∧ f.url = g.url ∧ f.authenticated = g.authenticated ∧
      f.responsePath = g.responsePath ∧ f.conditionsText = g.conditionsText ∧ f.toSign = g.toSign := by
  rw [text_eq, text_eq]
  constructor
  · intro same
    obtain ⟨name, rest⟩ := front_append_inj same
    obtain ⟨url, rest⟩ := literal_append_inj (List.append_cancel_left rest)
    obtain ⟨authenticated, rest⟩ := options_append_inj name rest
    obtain ⟨path, rest⟩ := literal_append_inj rest
    exact ⟨String.toList_inj.mp name, String.toList_inj.mp url, authenticated, String.toList_inj.mp path,
      back_inj rest⟩
  · rintro ⟨name, url, authenticated, path, conditions, bytes⟩
    have name : f.name = g.name := congrArg String.toList name
    unfold front options back ending
    rw [name, url, authenticated, path, conditions, bytes]

/-- Compiling makes such routines of the actions that fetch. Those with the same text have the same name and the same
data. In the text the url and the response path are read where they are meant, and as what they are. -/
theorem text_unambiguous (f g : Fetch) :
    (∀ a : FetchAction, Routine.ofAction (.fetch a) =
      .ok (routine ⟨a.priority, a.url, a.apiKey?.isSome, a.responsePath, a.signConditions, a.toSign⟩)) ∧
    (f.routine.text = g.routine.text ↔
      f.routine.name = g.routine.name ∧ f.url = g.url ∧ f.authenticated = g.authenticated ∧
        f.responsePath = g.responsePath ∧ f.conditionsText = g.conditionsText ∧ f.toSign = g.toSign) ∧
    (∃ url more, arguments "fetch" f.routine.text = [url :: more] ∧
      Value.read? (String.ofList url) = some (.str f.url)) ∧
    ∃ path, arguments "extractPath" f.routine.text = [["body".toList, path]] ∧
      Value.read? (String.ofList path) = some (.str f.responsePath) := by
  obtain ⟨more, url⟩ := f.arguments_fetch
  exact ⟨ofAction_fetch, text_eq_iff, ⟨_, more, url, read?_literal f.url⟩,
    ⟨_, f.arguments_extractPath, read?_literal f.responsePath⟩⟩

end Fetch
end Tripwire.Script
