import Tripwire.Text.Blank
import Tripwire.Text.Quoted

/-!
# Redirected reports

Code reports its result by a call. In a script with several units each such call becomes an
assignment to the unit's place in the map of results. The end of a call is found by its brackets;
brackets within quotes do not count.
-/
namespace Tripwire.Script

def reportCall : String := "Lit.Actions.setResponse"

def resultsName : String := "results"

structure Scan where
  depth : Nat
  quote? : Option Char
  escaped : Bool
  deriving DecidableEq, Repr

namespace Scan

def start : Scan := ⟨0, none, false⟩

def isOpening (c : Char) : Bool := c = '(' || c = '{' || c = '['
def isClosing (c : Char) : Bool := c = ')' || c = '}' || c = ']'
def isQuote (c : Char) : Bool := c = '"' || c = '\'' || c = '`'

def atTop (s : Scan) : Bool := s.depth = 0 && s.quote?.isNone

/-- Takes one character. A closing bracket without an opening one changes nothing. -/
def step (s : Scan) (c : Char) : Scan :=
  match s.quote? with
  | some q =>
      if s.escaped then { s with escaped := false }
      else if c = '\\' then { s with escaped := true }
      else if c = q then { s with quote? := none }
      else s
  | none =>
      if isQuote c then { s with quote? := some c }
      else if isOpening c then { s with depth := s.depth + 1 }
      else if isClosing c then { s with depth := s.depth - 1 }
      else s

end Scan

def splitTop (stop : Char) (scan : Scan) : List Char → Option (List Char × List Char)
  | [] => none
  | c :: rest =>
      if scan.atTop && c = stop then some ([], rest)
      else (splitTop stop (scan.step c) rest).map fun (before, after) => (c :: before, after)

theorem length_splitTop {stop : Char} {scan : Scan} {text before after : List Char}
    (h : splitTop stop scan text = some (before, after)) :
    text.length = before.length + 1 + after.length := by
  induction text generalizing scan before with
  | nil => simp [splitTop] at h
  | cons c rest ih =>
      simp only [splitTop] at h
      split at h
      · simp only [Option.some.injEq, Prod.mk.injEq] at h
        rcases h with ⟨rfl, rfl⟩
        simp; omega
      · obtain ⟨⟨b, a⟩, split, same⟩ := Option.map_eq_some_iff.mp h
        simp only [Prod.mk.injEq] at same
        rcases same with ⟨rfl, rfl⟩
        have := ih split
        simp only [List.length_cons]
        omega

def stripPrefix? : List Char → List Char → Option (List Char)
  | [], text => some text
  | _ :: _, [] => none
  | p :: ps, c :: rest => if p = c then stripPrefix? ps rest else none

theorem length_stripPrefix? {start text rest : List Char} (h : stripPrefix? start text = some rest) :
    text.length = start.length + rest.length := by
  induction start generalizing text with
  | nil => simp [stripPrefix?] at h; simp [h]
  | cons p ps ih =>
      cases text with
      | nil => simp [stripPrefix?] at h
      | cons c cs =>
          simp only [stripPrefix?] at h
          split at h
          · have := ih h; simp only [List.length_cons]; omega
          · simp at h

def afterCall? (text : List Char) : Option (List Char) :=
  match stripPrefix? reportCall.toList text with
  | none => none
  | some rest =>
      match rest.dropWhile Text.isBlank with
      | '(' :: rest => some rest
      | _ => none

def findCall : List Char → Option (List Char × List Char)
  | [] => none
  | c :: rest =>
      match afterCall? (c :: rest) with
      | some after => some ([], after)
      | none => (findCall rest).map fun (before, after) => (c :: before, after)

theorem length_afterCall? {text rest : List Char} (h : afterCall? text = some rest) :
    rest.length < text.length := by
  simp only [afterCall?] at h
  split at h
  · simp at h
  · rename_i tail found
    have := length_stripPrefix? found
    have shorter := (List.dropWhile_sublist Text.isBlank (l := tail)).length_le
    split at h
    · rename_i bracket
      simp only [Option.some.injEq] at h
      subst h
      rw [bracket] at shorter
      simp only [List.length_cons] at shorter
      omega
    · simp at h

theorem length_findCall {text before after : List Char} (h : findCall text = some (before, after)) :
    before.length + after.length < text.length := by
  induction text generalizing before with
  | nil => simp [findCall] at h
  | cons c rest ih =>
      simp only [findCall] at h
      split at h
      · rename_i found
        simp only [Option.some.injEq, Prod.mk.injEq] at h
        rcases h with ⟨rfl, rfl⟩
        simpa using length_afterCall? found
      · obtain ⟨⟨b, a⟩, found, same⟩ := Option.map_eq_some_iff.mp h
        simp only [Prod.mk.injEq] at same
        rcases same with ⟨rfl, rfl⟩
        have := ih found
        simp only [List.length_cons]
        omega

def responseKeys : List (List Char) :=
  ["response".toList, "\"response\"".toList, "'response'".toList]

def afterResponseKey? (field : List Char) : Option (List Char) :=
  let text := field.dropWhile Text.isBlank
  responseKeys.findSome? fun key =>
    match (stripPrefix? key text).map (·.dropWhile Text.isBlank) with
    | some (':' :: rest) => some rest
    | _ => none

def responseField? (fields : List Char) : Option (List Char) :=
  match h : splitTop ',' .start fields with
  | some (field, rest) =>
      have : rest.length < fields.length := by have := length_splitTop h; omega
      match afterResponseKey? field with
      | some value => let value := Text.trim value; if value.isEmpty then none else some value
      | none => responseField? rest
  | none =>
      match afterResponseKey? fields with
      | some value => let value := Text.trim value; if value.isEmpty then none else some value
      | none => none
termination_by fields.length

def responseProperty? (argument : List Char) : Option (List Char) :=
  match argument with
  | '{' :: inner =>
      match splitTop '}' .start inner with
      | some (fields, rest) => if (Text.trim rest).isEmpty then responseField? fields else none
      | none => none
  | _ => none

def reportedValue (argument : List Char) : List Char :=
  let argument := Text.trim argument
  (responseProperty? argument).getD argument

def assignment (key value : List Char) : List Char :=
  resultsName.toList ++ '[' :: Text.quoted key ++ ']' :: ' ' :: '=' :: ' ' :: value

def redirectChars (key text : List Char) : List Char :=
  match h : findCall text with
  | none => text
  | some (before, after) =>
      match closing : splitTop ')' .start after with
      | none => text
      | some (argument, rest) =>
          have : rest.length < text.length := by
            have := length_findCall h
            have := length_splitTop closing
            omega
          before ++ assignment key (reportedValue argument) ++ redirectChars key rest
termination_by text.length

def redirect (key code : String) : String :=
  String.ofList (redirectChars key.toList code.toList)

end Tripwire.Script
