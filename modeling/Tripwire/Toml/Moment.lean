import Tripwire.Time.Rfc3339
import Tripwire.Toml.Line

/-!
# Dates and times in TOML

A date, a time of day, or both, and then perhaps an offset from UTC. They are kept as text in one
spelling: a capital `T` and `Z`, and no more digits in the fraction of a second than it needs, of nine
at most.
-/
namespace Tripwire.Toml

def readField (digits low high : Nat) (text : List Char) : Option (Nat × List Char) := do
  let ds ← (text.take digits).mapM Text.Numeral.digit?
  let n := Text.Numeral.ofDigits ds
  if ds.length = digits && low ≤ n && n ≤ high then some (n, text.drop digits) else none

def readDate (text : List Char) : Option (List Char × List Char) := do
  let (year, rest) ← readField 4 0 9999 text
  let rest ← readMark '-' rest
  let (month, rest) ← readField 2 1 12 rest
  let rest ← readMark '-' rest
  let (day, rest) ← readField 2 1 31 rest
  if Time.Date.isValid ⟨year, month, day⟩ then
    pure (Time.padded 4 year ++ '-' :: Time.padded 2 month ++ '-' :: Time.padded 2 day, rest)
  else none

def fractionText (nanos : Nat) : List Char :=
  if nanos = 0 then []
  else '.' :: ((Time.padded 9 nanos).reverse.dropWhile (· = '0')).reverse

def readTime (text : List Char) : Option (List Char × List Char) := do
  let (hour, rest) ← readField 2 0 23 text
  let rest ← readMark ':' rest
  let (minute, rest) ← readField 2 0 59 rest
  let rest ← readMark ':' rest
  let (second, rest) ← readField 2 0 60 rest
  let (nanos, rest) ← Time.takeFraction rest
  pure (Time.padded 2 hour ++ ':' :: Time.padded 2 minute ++ ':' :: Time.padded 2 second ++
    fractionText nanos, rest)

def readOffset (text : List Char) : List Char × List Char :=
  let ahead (behind : Bool) (rest : List Char) : Option (List Char × List Char) := do
    let (hour, rest) ← readField 2 0 23 rest
    let rest ← readMark ':' rest
    let (minute, rest) ← readField 2 0 59 rest
    let sign := if behind && 0 < 60 * hour + minute then '-' else '+'
    pure (sign :: Time.padded 2 hour ++ ':' :: Time.padded 2 minute, rest)
  match text with
  | 'Z' :: rest | 'z' :: rest => (['Z'], rest)
  | '+' :: rest => (ahead false rest).getD ([], text)
  | '-' :: rest => (ahead true rest).getD ([], text)
  | _ => ([], text)

def readTimeOfDate (text : List Char) : List Char × List Char :=
  let read (rest : List Char) : List Char × List Char :=
    match readTime rest with
    | none => ([], text)
    | some (time, rest) =>
        let (offset, rest) := readOffset rest
        ('T' :: time ++ offset, rest)
  match text with
  | 'T' :: rest | 't' :: rest | ' ' :: rest => read rest
  | _ => ([], text)

def readMoment (text : List Char) : Option (String × List Char) :=
  match readDate text with
  | some (date, rest) =>
      let (time, rest) := readTimeOfDate rest
      some (String.ofList (date ++ time), rest)
  | none => (readTime text).map fun (time, rest) => (String.ofList time, rest)

end Tripwire.Toml
