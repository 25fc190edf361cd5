import Rulebook.Json.Codec
import Rulebook.Text.Blank
import Rulebook.Text.Numeral
import Rulebook.Time.Calendar
import Rulebook.Time.Instant

/-!
Instants as text: `2024-01-02T03:04:05.678Z`. Written times are in universal time with as many
fraction digits as needed, in threes. Read times may have any offset, blanks between their parts,
fewer digits than two and a space for the `T`.
-/

namespace Rulebook.Instant

/-! Writing -/

def yearText (year : Int) : String :=
  if 0 ≤ year ∧ year ≤ 9999 then Text.zeroPadded 4 year.toNat
  else (if year < 0 then "-" else "+") ++ Text.zeroPadded 4 year.natAbs

def fractionText (nano : Nat) : String :=
  if nano = 0 then ""
  else if nano % 1000000 = 0 then "." ++ Text.zeroPadded 3 (nano / 1000000)
  else if nano % 1000 = 0 then "." ++ Text.zeroPadded 6 (nano / 1000)
  else "." ++ Text.zeroPadded 9 nano

def toText (instant : Instant) : String :=
  let date := Calendar.ofDayNumber (instant.second / dayLength)
  let clock := (instant.second % dayLength).toNat
  let leap := instant.inLeapSecond
  let second := clock % 60 + if leap then 1 else 0
  let nano := if leap then instant.nano - 1000000000 else instant.nano
  let two := Text.zeroPadded 2
  s!"{yearText date.year}-{two date.month}-{two date.day}T" ++
    s!"{two (clock / 3600)}:{two (clock / 60 % 60)}:{two second}{fractionText nano}Z"

def toJson (instant : Instant) : Json :=
  .str instant.toText

/-! Reading -/

inductive Misreading where
  | tooShort
  | invalid
  | outOfRange
  | impossible
  | trailing

def Misreading.message : Misreading → String
  | .tooShort => "premature end of input"
  | .invalid => "input contains invalid characters"
  | .outOfRange => "input is out of range"
  | .impossible => "no possible date and time matching input"
  | .trailing => "trailing input"

abbrev Scanner := StateT (List Char) (Except Misreading)

def skipBlanks : Scanner Unit :=
  modify (·.dropWhile Text.isBlank)

/-- From one to `most` decimal digits; the numbers of years are bounded by 64 bits. -/
def digits (most : Nat) : Scanner Nat := do
  let ahead := ((← get).take most).takeWhile Char.isDigit
  match Text.natural? ahead with
  | some value =>
    if value < twoTo 63 then
      modify (·.drop ahead.length)
      pure value
    else throw .outOfRange
  | none => throw (if (← get).isEmpty then .tooShort else .invalid)

def field (most low high : Nat) : Scanner Nat := do
  skipBlanks
  let value ← digits most
  if low ≤ value ∧ value ≤ high then pure value else throw .outOfRange

def year : Scanner Int := do
  skipBlanks
  let value : Int ← match ← get with
    | '-' :: rest => do
      set rest
      pure (-((← digits rest.length) : Int))
    | '+' :: rest => do
      set rest
      pure (← digits rest.length)
    | _ => pure (← digits 4)
  if -(twoTo 31 : Int) ≤ value ∧ value < twoTo 31 then pure value else throw .outOfRange

def mark (expected : Char) : Scanner Unit := do
  skipBlanks
  match ← get with
  | [] => throw .tooShort
  | character :: rest => if character = expected then set rest else throw .invalid

/-- Up to nine digits of a second's fraction count. -/
def fraction : Scanner Nat := do
  match ← get with
  | '.' :: rest => do
    set rest
    let shown := (rest.take 9).takeWhile Char.isDigit
    let value ← digits 9
    modify (·.dropWhile Char.isDigit)
    pure (value * tenTo (9 - shown.length))
  | _ => pure 0

def twoDigits? : List Char → Except Misreading (Char × Char)
  | first :: second :: _ => .ok (first, second)
  | [_] | [] => .error .tooShort

/-- Bytes are counted where two digits are expected, so that one wide character is wrong and not
too short. -/
def pair : Scanner (Char × Char) := do
  match ← get with
  | [wide] => throw (if 2 ≤ wide.utf8Size then .invalid else .tooShort)
  | characters => match twoDigits? characters with
    | .ok found => pure found
    | .error wrong => throw wrong

/-- Seconds east of Greenwich. -/
def offset : Scanner Int := do
  match ← get with
  | [] => throw .tooShort
  | 'z' :: rest | 'Z' :: rest => do
    set rest
    pure 0
  | sign :: rest =>
    let negative := sign = '-' ∨ sign = '\u2212'
    if sign ≠ '+' ∧ ¬ negative then throw .invalid
    set rest
    let (first, second) ← pair
    if ¬ (first.isDigit ∧ second.isDigit) then throw .invalid
    let hours := (first.toNat - 48) * 10 + (second.toNat - 48)
    modify fun characters =>
      (characters.drop 2).dropWhile fun character => character = ':' || Text.isBlank character
    let (tens, units) ← pair
    if ¬ (tens.isDigit ∧ units.isDigit) then throw .invalid
    if '6' ≤ tens then throw .outOfRange
    let minutes := (tens.toNat - 48) * 10 + (units.toNat - 48)
    modify (·.drop 2)
    let seconds : Int := (hours * 3600 + minutes * 60 : Nat)
    pure (if negative then -seconds else seconds)

/-- The three letters `UTC`, in any case, or an offset. -/
def zone : Scanner Int := do
  skipBlanks
  match ← get with
  | first :: second :: third :: rest =>
    if [first, second, third].map Char.toUpper = ['U', 'T', 'C'] then do
      set rest
      pure 0
    else offset
  | _ => offset

def scan : Scanner Instant := do
  let year ← year
  mark '-'
  let month ← field 2 1 12
  mark '-'
  let day ← field 2 1 31
  match ← get with
  | [] => throw .tooShort
  | separator :: rest =>
    if separator = 't' ∨ separator = 'T' ∨ separator = ' ' then set rest else throw .invalid
  let hour ← field 2 0 23
  mark ':'
  let minute ← field 2 0 59
  mark ':'
  let second ← field 2 0 60
  let nano ← fraction
  let offset ← zone
  skipBlanks
  unless (← get).isEmpty do throw .trailing
  let date : Calendar.Date := ⟨year, month, day⟩
  let clock := hour * 3600 + minute * 60 + (if second = 60 then 59 else second)
  let localSecond := Calendar.dayNumber date * dayLength + clock
  if ¬ date.isValid ∨ ¬ isRepresentable localSecond then throw .outOfRange
  if dayLength ≤ offset.natAbs then throw .outOfRange
  if ¬ isRepresentable (localSecond - offset) then throw .impossible
  pure ⟨localSecond - offset, if second = 60 then nano + 1000000000 else nano⟩

def ofText (text : String) : Except Misreading Instant :=
  (scan.run text.toList).map Prod.fst

def codec : Json.Codec Instant :=
  .parsed "an RFC 3339 formatted date and time string" fun text =>
    (ofText text).mapError fun wrong => .rejected wrong.message

end Rulebook.Instant
