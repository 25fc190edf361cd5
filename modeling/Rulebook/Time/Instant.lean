/-!
Instants of universal time with nanoseconds. A leap second is the second before it with a
nanosecond count of a thousand million or more.
-/

namespace Rulebook

/-- A length of time. A number stands for so many seconds. -/
structure Duration where
  nanoseconds : Nat
  deriving DecidableEq, Inhabited

namespace Duration

def ofSeconds (seconds : Nat) : Duration :=
  ⟨seconds * 1000000000⟩

instance : Coe Nat Duration :=
  ⟨ofSeconds⟩

instance (seconds : Nat) : OfNat Duration seconds :=
  ⟨ofSeconds seconds⟩

/-- Whole seconds. -/
def seconds (duration : Duration) : Nat :=
  duration.nanoseconds / 1000000000

/-- What is over whole seconds, in nanoseconds. -/
def nano (duration : Duration) : Nat :=
  duration.nanoseconds % 1000000000

end Duration

structure Instant where
  /-- Seconds since the start of 1970, leap seconds left out. -/
  second : Int
  nano : Nat
  deriving DecidableEq, Inhabited

namespace Instant

instance : Ord Instant where
  compare left right := (compare left.second right.second).then (compare left.nano right.nano)

def isAtMost (left right : Instant) : Bool :=
  left.second < right.second || (left.second == right.second && left.nano ≤ right.nano)

def dayLength : Int := 86400

/-- The first second of the year -262143. -/
def earliestSecond : Int := -8334601228800

/-- The last second of the year 262142. -/
def latestSecond : Int := 8210266876799

def earliest : Instant := ⟨earliestSecond, 0⟩

def isRepresentable (second : Int) : Bool :=
  earliestSecond ≤ second && second ≤ latestSecond

def inLeapSecond (instant : Instant) : Bool :=
  1000000000 ≤ instant.nano

/-- The instant that long before another one, if there is one. Less than a second before one in a
leap second is still in the same second. -/
def minus? (instant : Instant) (duration : Duration) : Option Instant :=
  let last : Instant :=
    if duration.seconds ≠ 0 ∧ instant.inLeapSecond then
      ⟨instant.second + 1, instant.nano - 1000000000⟩
    else instant
  let result : Instant :=
    if duration.nano ≤ last.nano then ⟨last.second - duration.seconds, last.nano - duration.nano⟩
    else ⟨last.second - duration.seconds - 1, last.nano + 1000000000 - duration.nano⟩
  if isRepresentable result.second then some result else none

def earlier? (instant : Instant) (seconds : Nat) : Option Instant :=
  instant.minus? (.ofSeconds seconds)

def later (instant : Instant) (seconds : Nat) : Instant :=
  ⟨instant.second + seconds, instant.nano⟩

def plus (instant : Instant) (nanoseconds : Nat) : Instant :=
  let nano := instant.nano + nanoseconds
  ⟨instant.second + nano / 1000000000, nano % 1000000000⟩

/-- Whole seconds from an instant outside leap seconds up to a later one. A leap second counts
only from a time of day that is not later than its own. -/
def secondsSince (instant start : Instant) : Int :=
  let whole := instant.second - start.second
  let early := instant.second % dayLength < start.second % dayLength
  let adjusted := if early ∧ instant.inLeapSecond then whole - 1 else whole
  (adjusted * 1000000000 + (instant.nano : Int) - start.nano).tdiv 1000000000

end Instant

end Rulebook
