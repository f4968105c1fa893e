import Tripwire.Time.Instant
import Tripwire.Text.Blank
import Tripwire.Text.Numeral

/-!
# Instants as RFC 3339 text

Reading is lenient: blanks may stand before a number and around `-` and `:`, the date and the time
are joined by `T`, `t` or a space, a year with a sign may have any number of digits, and the offset
may be `UTC`. Writing is in UTC, with as many fraction digits as needed out of 0, 3, 6 and 9.
-/
namespace Tripwire.Time

def skipBlanks (text : List Char) : List Char := text.dropWhile Text.isBlank

def takeNumber (most : Nat) (text : List Char) : Option (Nat × List Char) :=
  let rec go : Nat → Nat → List Char → Nat × List Char
    | 0, n, rest => (n, rest)
    | _ + 1, n, [] => (n, [])
    | most + 1, n, c :: rest =>
        match Text.Numeral.digit? c with
        | some d => go most (10 * n + d) rest
        | none => (n, c :: rest)
  match text with
  | [] => none
  | c :: _ => if (Text.Numeral.digit? c).isSome then some (go most 0 text) else none

def takeWithin (low high most : Nat) (text : List Char) : Option (Nat × List Char) := do
  let (n, rest) ← takeNumber most (skipBlanks text)
  if low ≤ n ∧ n ≤ high then some (n, rest) else none

/-- A year. Four digits at most, unless it has a sign. -/
def takeYear (text : List Char) : Option (Int × List Char) :=
  match skipBlanks text with
  | '-' :: rest => (takeNumber rest.length rest).map fun (n, rest) => (-(n : Int), rest)
  | '+' :: rest => (takeNumber rest.length rest).map fun (n, rest) => ((n : Int), rest)
  | rest => (takeNumber 4 rest).map fun (n, rest) => ((n : Int), rest)

def takeMark (mark : Char) (text : List Char) : Option (List Char) :=
  match skipBlanks text with
  | c :: rest => if c = mark then some rest else none
  | [] => none

/-- The fraction of a second in nanoseconds. Digits after the ninth are dropped. -/
def takeFraction (text : List Char) : Option (Nat × List Char) :=
  match text with
  | '.' :: rest =>
      let digits := rest.takeWhile Char.isDigit
      if digits.isEmpty then none
      else
        let kept := digits.take 9
        let n := kept.foldl (fun n c => 10 * n + (c.toNat - '0'.toNat)) 0
        some (n * Nat.pow 10 (9 - kept.length), rest.drop digits.length)
  | rest => some (0, rest)

def takeOffset (text : List Char) : Option (Int × List Char) :=
  match text with
  | 'Z' :: rest | 'z' :: rest => some (0, rest)
  | u :: t :: c :: rest =>
      if u.toUpper = 'U' ∧ t.toUpper = 'T' ∧ c.toUpper = 'C' then some (0, rest)
      else do
        let negative ← if u = '+' then some false
          else if u = '-' ∨ u = '\u2212' then some true else none
        let tens ← Text.Numeral.digit? t
        let ones ← Text.Numeral.digit? c
        match rest.dropWhile fun c => c = ':' || Text.isBlank c with
        | m :: n :: rest =>
            let m ← Text.Numeral.digit? m
            let n ← Text.Numeral.digit? n
            if 5 < m ∨ 23 < 10 * tens + ones then none
            else
              let seconds : Int := ((10 * tens + ones) * 60 + 10 * m + n) * 60
              some (if negative then -seconds else seconds, rest)
        | _ => none
  | _ => none

def firstYear : Int := -262143
def lastYear : Int := 262142

/-- Reads an instant. A sixtieth second is the leap second of its minute. -/
def Instant.read? (text : List Char) : Option Instant := do
  let (year, rest) ← takeYear text
  let rest ← takeMark '-' rest
  let (month, rest) ← takeWithin 1 12 2 rest
  let rest ← takeMark '-' rest
  let (day, rest) ← takeWithin 1 31 2 rest
  let rest ← match rest with
    | c :: rest => if c = 'T' ∨ c = 't' ∨ c = ' ' then some rest else none
    | [] => none
  let (hour, rest) ← takeWithin 0 23 2 rest
  let rest ← takeMark ':' rest
  let (minute, rest) ← takeWithin 0 59 2 rest
  let rest ← takeMark ':' rest
  let (second, rest) ← takeWithin 0 60 2 rest
  let (nanos, rest) ← takeFraction rest
  let (offset, rest) ← takeOffset (skipBlanks rest)
  let date : Date := ⟨year, month, day⟩
  if !(skipBlanks rest).isEmpty || !date.isValid || year < firstYear || lastYear < year then none
  let (second, nanos) := if second = 60 then (59, nanos + 1000000000) else (second, nanos)
  let seconds := date.toDays * 86400 + ((hour * 60 + minute) * 60 + second : Nat) - offset
  let utcYear := (Date.ofDays (seconds / 86400)).year
  if utcYear < firstYear || lastYear < utcYear then none
  pure ⟨seconds, nanos⟩

def padded (width n : Nat) : List Char :=
  let digits := Text.Numeral.write n
  List.replicate (width - digits.length) '0' ++ digits

def yearText (year : Int) : List Char :=
  if 0 ≤ year ∧ year ≤ 9999 then padded 4 year.toNat
  else (if year < 0 then '-' else '+') :: padded 4 year.natAbs

def fractionText (nanos : Nat) : List Char :=
  if nanos = 0 then []
  else if nanos % 1000000 = 0 then '.' :: padded 3 (nanos / 1000000)
  else if nanos % 1000 = 0 then '.' :: padded 6 (nanos / 1000)
  else '.' :: padded 9 nanos

def Instant.write (t : Instant) : List Char :=
  let date := Date.ofDays (t.seconds / 86400)
  let time := (t.seconds % 86400).toNat
  let leap := t.nanos / 1000000000
  yearText date.year ++ '-' :: padded 2 date.month ++ '-' :: padded 2 date.day ++
    'T' :: padded 2 (time / 3600) ++ ':' :: padded 2 (time / 60 % 60) ++
    ':' :: padded 2 (time % 60 + leap) ++ fractionText (t.nanos % 1000000000) ++ ['Z']

end Tripwire.Time
