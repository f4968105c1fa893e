import Tripwire.Proofs.Script.Encoding

/-!
# Brackets in code

A reader of code knows the word that it has just read and whether it is within quotes. So it finds each bracket
that opens, with the word before it. A call is a word before a round one, a lookup is `apiKeys` before a square one.
-/
namespace Tripwire.Script
open Value

/-- Where a reader of code is: behind a word, or within quotes. Template text is read like code, since lookups
stand in it. -/
inductive Place where
  | code (word : List Char)
  | quoted (quote : Char) (escaped : Bool)
  deriving DecidableEq, Repr

structure Mark where
  word : List Char
  bracket : Bracket
  deriving DecidableEq, Repr

def Bracket.opened? (c : Char) : Option Bracket :=
  if c = '(' then some .round else if c = '\x7b' then some .curly else if c = '[' then some .square else none

namespace Place

def isWord (c : Char) : Bool := c.isAlphanum || c = '_' || c = '$'

def next : Place → Char → Place
  | .code word, c =>
      if c = '"' ∨ c = '\'' then .quoted c false
      else if isWord c then .code (word ++ [c])
      else .code []
  | .quoted quote true, _ => .quoted quote false
  | .quoted quote false, c =>
      if c = '\\' then .quoted quote true else if c = quote then .code [] else .quoted quote false

def after (p : Place) (text : List Char) : Place := text.foldl next p

def mark? : Place → Char → Option Mark
  | .code word, c => (Bracket.opened? c).map (Mark.mk word)
  | .quoted .., _ => none

def openings : Place → List Char → List (Mark × List Char)
  | _, [] => []
  | p, c :: rest => ((p.mark? c).map (·, rest)).toList ++ (p.next c).openings rest

end Place

open Place

def behind (m : Mark) (found : List (Mark × List Char)) : List (List Char) :=
  found.filterMap fun o => if o.1 = m then some o.2 else none

/-- The word before each round bracket that opens, which is empty if none stands there. -/
def calls (text : List Char) : List (List Char) :=
  ((code []).openings text).filterMap fun o => if o.1.bracket = .round then some o.1.word else none

def keyMark : Mark := ⟨apiKeysParam.toList, .square⟩

def lookups (text : List Char) : List (List Char) :=
  (behind keyMark ((code []).openings text)).map (·.takeWhile (· ≠ ']'))

variable {p p' p'' : Place} {m : Mark} {c : Char} {text rest word name : List Char}
  {found found' : List (Mark × List Char)}

theorem after_append (p : Place) (text rest : List Char) :
    p.after (text ++ rest) = (p.after text).after rest :=
  List.foldl_append

def followed (rest : List Char) (found : List (Mark × List Char)) : List (Mark × List Char) :=
  found.map (Prod.map id (· ++ rest))

theorem openings_append (p : Place) (text rest : List Char) :
    p.openings (text ++ rest) = followed rest (p.openings text) ++ (p.after text).openings rest := by
  induction text generalizing p with
  | nil => rfl
  | cons c text ih =>
      rw [List.cons_append, openings, openings, ih, followed, followed, List.map_append, List.append_assoc]
      cases p.mark? c <;> rfl

theorem calls_append (ends : (code []).after text = code []) (rest : List Char) :
    calls (text ++ rest) = calls text ++ calls rest := by
  rw [calls, openings_append, ends, List.filterMap_append, followed, List.filterMap_map]
  rfl

theorem behind_append (found found' : List (Mark × List Char)) :
    behind m (found ++ found') = behind m found ++ behind m found' :=
  List.filterMap_append

theorem behind_followed (rest : List Char) (found : List (Mark × List Char)) :
    behind m (followed rest found) = (behind m found).map (· ++ rest) := by
  rw [behind, followed, List.filterMap_map, behind, List.map_filterMap]
  apply List.filterMap_congr
  intro o _
  by_cases same : o.1 = m
  · simp [same]
  · simp [same]

def fetchMark : Mark := ⟨"fetch".toList, .round⟩

def pathMark : Mark := ⟨"extractPath".toList, .round⟩

def watched : List Mark := [fetchMark, keyMark, pathMark]

/-- A text leads from one place to another, and the brackets that are watched are found on the way. -/
structure Reads (p : Place) (text : List Char) (found : List (Mark × List Char)) (p' : Place) : Prop where
  after : p.after text = p'
  found : (p.openings text).filter (·.1 ∈ watched) = found

instance : Decidable (Reads p text found p') :=
  decidable_of_iff (p.after text = p' ∧ (p.openings text).filter (·.1 ∈ watched) = found)
    ⟨fun ⟨after, found⟩ => ⟨after, found⟩, fun ⟨after, found⟩ => ⟨after, found⟩⟩

namespace Reads

theorem nil : Reads p [] [] p := ⟨rfl, rfl⟩

theorem cons (unwatched : ∀ m ∈ p.mark? c, m ∉ watched) (later : Reads (p.next c) text [] p') :
    Reads p (c :: text) [] p' := by
  refine ⟨later.after, ?_⟩
  rw [openings, List.filter_append, later.found, List.append_nil]
  cases mark : p.mark? c with
  | none => rfl
  | some m => simpa using unwatched m mark

theorem quoted {quote : Char} {escaped : Bool} (later : Reads ((Place.quoted quote escaped).next c) text [] p') :
    Reads (.quoted quote escaped) (c :: text) [] p' :=
  .cons nofun later

theorem unopened (other : Bracket.opened? c = none) (later : Reads (p.next c) text [] p') :
    Reads p (c :: text) [] p' := by
  refine .cons ?_ later
  cases p with
  | code word => simp [mark?, other]
  | quoted => nofun

theorem append (first : Reads p text found p') (second : Reads p' rest found' p'') :
    Reads p (text ++ rest) (followed rest found ++ found') p'' := by
  constructor
  · rw [after_append, first.after, second.after]
  · rw [openings_append, first.after, List.filter_append, second.found, ← first.found, followed, followed,
      List.filter_map]
    rfl

theorem pass (p' : Place) (first : Reads p text [] p') (second : Reads p' rest found p'') :
    Reads p (text ++ rest) found p'' :=
  first.append second

theorem literal {text : List Char} (reads : Reads p text found p') :
    Reads p (String.ofList text).toList found p' := by
  rwa [String.toList_ofList]

theorem separated (separate : isWord c = false) (other : Bracket.opened? c = none)
    (reads : Reads (code []) (c :: text) found p') : Reads (code word) (c :: text) found p' := by
  have same : (code word).next c = (code []).next c := by simp [next, separate]
  have unmarked : (code word).mark? c = (code []).mark? c := by simp [mark?, other]
  obtain ⟨after, found⟩ := reads
  constructor
  · rw [Place.after, List.foldl_cons, same]
    exact after
  · rw [openings, same, unmarked]
    exact found

theorem behind (reads : Reads p text found p') (known : m ∈ watched) :
    Script.behind m (p.openings text) = Script.behind m found := by
  rw [← reads.found, Script.behind, Script.behind, List.filterMap_filter]
  apply List.filterMap_congr
  intro o _
  by_cases same : o.1 = m
  · simp [same, known]
  · simp [same]

end Reads

theorem opened?_eq_none (other : Scan.isOpening c = false) : Bracket.opened? c = none := by
  simp only [Scan.isOpening, Bool.or_eq_false_iff, decide_eq_false_iff_not] at other
  rw [Bracket.opened?, if_neg other.1.1, if_neg other.1.2, if_neg other.2]

theorem opened?_of_isWord (letter : isWord c) : Bracket.opened? c = none := by
  have differs {other : Char} (special : isWord other = false) : c ≠ other := Text.ne_of_class letter special
  rw [Bracket.opened?, if_neg (differs (by decide)), if_neg (differs (by decide)), if_neg (differs (by decide))]

theorem next_of_isWord (letter : isWord c) : (code word).next c = code (word ++ [c]) := by
  have differs {other : Char} (special : isWord other = false) : c ≠ other := Text.ne_of_class letter special
  rw [next, if_neg (not_or.mpr ⟨differs (by decide), differs (by decide)⟩), if_pos letter]

theorem word_eq (word : List Char) (letters : ∀ c ∈ text, isWord c) :
    (code word).after text = code (word ++ text) ∧ (code word).openings text = [] := by
  induction text generalizing word with
  | nil => simp [after, openings]
  | cons c text ih =>
      obtain ⟨letter, letters⟩ := List.forall_mem_cons.mp letters
      obtain ⟨after, none⟩ := ih (word ++ [c]) letters
      rw [Place.after, List.foldl_cons, openings, next_of_isWord letter, none, mark?, opened?_of_isWord letter]
      exact ⟨after.trans (by rw [List.append_assoc, List.singleton_append]), rfl⟩

theorem reads_word (letters : ∀ c ∈ text, isWord c) : Reads (code word) text [] (code (word ++ text)) := by
  obtain ⟨after, none⟩ := word_eq word letters
  exact ⟨after, by rw [none]; rfl⟩

theorem reads_escaped (escaped : Escaped text) : Reads (quoted '"' false) text [] (quoted '"' false) := by
  induction escaped with
  | nil => exact .nil
  | @inner c text quotable _ ih =>
      have next : (quoted '"' false).next c = quoted '"' false := by
        rw [Place.next, if_neg quotable.2, if_neg quotable.1]
      apply Reads.quoted
      rw [next]
      exact ih
  | escape _ ih => exact .quoted (.quoted ih)

theorem reads_quoted (escaped : Escaped text) : Reads (code word) ('"' :: (text ++ ['"'])) [] (code []) :=
  .unopened rfl ((reads_escaped escaped).pass _ (.quoted .nil))

theorem reads_literal (s : List Char) : Reads (code word) (Value.literal s) [] (code []) :=
  reads_quoted (escaped_flatMap s)

theorem not_watched {b : Bracket} (data : b ≠ .round) (small : ∀ c ∈ word, c.isUpper = false) :
    ⟨word, b⟩ ∉ watched := by
  have capital : 'K' ∈ apiKeysParam.toList := by decide
  rw [watched, List.mem_cons, List.mem_cons, List.mem_singleton]
  rintro (same | same | same)
  · exact data (congrArg Mark.bracket same)
  · have word : word = apiKeysParam.toList := congrArg Mark.word same
    rw [← word] at capital
    exact absurd (small 'K' capital) (by decide)
  · exact data (congrArg Mark.bracket same)

theorem Reads.opening {b : Bracket} (data : b ≠ .round) (small : ∀ c ∈ word, c.isUpper = false)
    (later : Reads (code []) text [] p') : Reads (code word) (b.opening :: text) [] p' := by
  have unwatched := not_watched data small
  cases b with
  | round => exact absurd rfl data
  | curly | square =>
      refine .cons ?_ later
      rintro _ ⟨⟩
      exact unwatched

theorem Reads.closing (b : Bracket) (later : Reads (code []) text [] p') :
    Reads (code word) (b.closing :: text) [] p' := by
  cases b <;> exact .separated (by decide) (by decide) (.unopened rfl later)

theorem Encoded.reads (encoded : Encoded text) (small : ∀ c ∈ word, c.isUpper = false) :
    ∃ word', (∀ c ∈ word', c.isUpper = false) ∧ Reads (code word) text [] (code word') := by
  induction encoded generalizing word with
  | nil => exact ⟨word, small, .nil⟩
  | @bare c text bare _ ih =>
      have plain := isPlain_of_isBare bare
      have differs {other : Char} (special : isPlain other = false) : c ≠ other :=
        Text.ne_of_class plain special
      have unopened : Bracket.opened? c = none := by
        rw [isPlain, Bool.not_or, Bool.not_or, Bool.and_eq_true, Bool.and_eq_true] at plain
        exact opened?_eq_none (Bool.not_eq_true' _ ▸ plain.1.1)
      have next : ∃ word', (∀ c ∈ word', c.isUpper = false) ∧ (code word).next c = code word' := by
        rw [Place.next, if_neg (not_or.mpr ⟨differs (by decide), differs (by decide)⟩)]
        split
        · rw [isBare, Bool.and_eq_true, Bool.not_eq_true'] at bare
          exact ⟨_, List.forall_mem_append.mpr ⟨small, List.forall_mem_singleton.mpr bare.2⟩, rfl⟩
        · exact ⟨[], List.forall_mem_nil _, rfl⟩
      obtain ⟨word', small', next⟩ := next
      obtain ⟨word'', small'', reads⟩ := ih small'
      rw [← next] at reads
      exact ⟨word'', small'', .unopened unopened reads⟩
  | literal s _ ih =>
      obtain ⟨word', small', reads⟩ := ih (List.forall_mem_nil _)
      exact ⟨word', small', (reads_literal s).pass _ reads⟩
  | bracketed b data _ _ within rest =>
      obtain ⟨inner, -, inside⟩ := within (List.forall_mem_nil _)
      obtain ⟨word', small', reads⟩ := rest (List.forall_mem_nil _)
      exact ⟨word', small', .opening data small (inside.pass _ (.closing b reads))⟩

theorem reads_list (xs : List Value) : Reads (code []) (Value.list xs).text [] (code []) := by
  obtain ⟨items, encoded, same⟩ := list_text_eq xs
  obtain ⟨inner, -, inside⟩ := encoded.reads (List.forall_mem_nil _)
  rw [same]
  exact .opening (b := .square) (by decide) (List.forall_mem_nil _) (inside.pass _ (.closing .square .nil))

end Tripwire.Script
