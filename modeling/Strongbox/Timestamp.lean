import Strongbox.Binary64

/-!
# Points in time

A timestamp is a wall clock in microseconds with an optional offset from universal time. It is read from
ISO 8601 text or from a count of seconds or milliseconds, and written back in ISO 8601.
-/

namespace Strongbox

/-- A wall clock reading in microseconds since the start of 1970, and the offset of its zone in seconds. -/
structure Timestamp where
  wall : Int
  offset : Option Int
  deriving DecidableEq, Repr

namespace Timestamp

def microsPerDay : Int := 86400000000

def isLeap (year : Nat) : Bool := year % 4 == 0 && (year % 100 != 0 || year % 400 == 0)

def daysInMonth (year month : Nat) : Nat :=
  if month = 2 then (if isLeap year then 29 else 28)
  else if month = 4 || month = 6 || month = 9 || month = 11 then 30
  else 31

/-- Days from the start of 1970 to a date; the years are counted from March. -/
def daysOfDate (year month day : Nat) : Int :=
  let y : Int := if month ≤ 2 then (year : Int) - 1 else year
  let era := y / 400
  let yearOfEra := y % 400
  let shifted : Int := ((month : Int) + 9) % 12
  let dayOfYear := (153 * shifted + 2) / 5 + day - 1
  let dayOfEra := yearOfEra * 365 + yearOfEra / 4 - yearOfEra / 100 + dayOfYear
  era * 146097 + dayOfEra - 719468

def dateOfDays (days : Int) : Int × Int × Int :=
  let z := days + 719468
  let era := z / 146097
  let dayOfEra := z % 146097
  let yearOfEra := (dayOfEra - dayOfEra / 1460 + dayOfEra / 36524 - dayOfEra / 146096) / 365
  let dayOfYear := dayOfEra - (365 * yearOfEra + yearOfEra / 4 - yearOfEra / 100)
  let shifted := (5 * dayOfYear + 2) / 153
  let day := dayOfYear - (153 * shifted + 2) / 5 + 1
  let month := if shifted < 10 then shifted + 3 else shifted - 9
  let year := yearOfEra + era * 400 + (if month ≤ 2 then 1 else 0)
  (year, month, day)

def earliest : Int := daysOfDate 1 1 1 * microsPerDay

def latest : Int := daysOfDate 9999 12 31 * microsPerDay + (microsPerDay - 1)

/-- A point in time that has a date of the calendar, whose years begin with the first. -/
def isDated (wall : Int) : Bool := earliest ≤ wall && wall ≤ latest

def hasDate (t : Timestamp) : Bool := isDated t.wall

/-- The first microsecond that can be named; its year is the one before the first. -/
def earliestNamed : Int := daysOfDate 0 1 1 * microsPerDay

def padded (width : Nat) (n : Nat) : Text :=
  let digits := Text.ofNat n
  List.replicate (width - digits.length) 48 ++ digits

def offsetText (offset : Int) : Text :=
  if offset = 0 then [90]
  else
    let minutes := offset.natAbs / 60
    (if offset < 0 then 45 else 43) :: padded 2 (minutes / 60) ++ [58] ++ padded 2 (minutes % 60)

/-- ISO 8601 text; a fraction has six digits and is left out when it is zero. -/
def toText (t : Timestamp) : Text :=
  let (year, month, day) := dateOfDays (t.wall / microsPerDay)
  let rest := (t.wall % microsPerDay).toNat
  let micros := rest % 1000000
  let seconds := rest / 1000000
  padded 4 year.toNat ++ [45] ++ padded 2 month.toNat ++ [45] ++ padded 2 day.toNat ++ [84] ++
    padded 2 (seconds / 3600) ++ [58] ++ padded 2 (seconds / 60 % 60) ++ [58] ++
    padded 2 (seconds % 60) ++
    (if micros = 0 then [] else 46 :: padded 6 micros) ++
    (match t.offset with
      | none => []
      | some offset => offsetText offset)

def twoDigits? : Text → Option (Nat × Text)
  | a :: b :: rest => do
    let tens ← Text.asciiDigit? a
    let ones ← Text.asciiDigit? b
    pure (tens * 10 + ones, rest)
  | _ => none

def expect? (c : CodePoint) : Text → Option Text
  | [] => none
  | a :: rest => if a = c then some rest else none

def readDate? (t : Text) : Option (Int × Text) := do
  let (century, t) ← twoDigits? t
  let (inCentury, t) ← twoDigits? t
  let t ← expect? 45 t
  let (month, t) ← twoDigits? t
  let t ← expect? 45 t
  let (day, t) ← twoDigits? t
  let year := century * 100 + inCentury
  if month = 0 || month > 12 || day = 0 || day > daysInMonth year month then none
  else some (daysOfDate year month day, t)

/-- Seconds and their fraction in microseconds; digits of the fraction after the sixth are cut. -/
def readSeconds? (t : Text) : Option (Nat × Nat × Text) := do
  let (seconds, t) ← twoDigits? t
  if seconds > 59 then none
  else match t with
    | c :: rest =>
      if c = 46 || c = 44 then
        let digits := rest.takeWhile Text.isDigit
        if digits.isEmpty then none
        else
          let kept := (digits ++ List.replicate 6 48).take 6
          some (seconds, Text.ofDigits (kept.filterMap Text.asciiDigit?),
            rest.dropWhile Text.isDigit)
      else some (seconds, 0, t)
    | [] => some (seconds, 0, t)

def readTime? (t : Text) : Option (Nat × Text) := do
  let (hour, t) ← twoDigits? t
  let t ← expect? 58 t
  let (minute, t) ← twoDigits? t
  if hour > 23 || minute > 59 then none
  else
    let minutes := hour * 60 + minute
    match t with
    | 58 :: rest => do
      let (seconds, micros, t) ← readSeconds? rest
      pure ((minutes * 60 + seconds) * 1000000 + micros, t)
    | _ => pure (minutes * 60 * 1000000, t)

def readOffset? : Text → Option (Option Int)
  | [] => some none
  | [90] => some (some 0)
  | [122] => some (some 0)
  | c :: rest => do
    let negative ← if c = 43 then some false else if c = 45 || c = 0x2212 then some true else none
    let (hours, rest) ← twoDigits? rest
    let rest := (expect? 58 rest).getD rest
    let (minutes, rest) ← twoDigits? rest
    if rest ≠ [] || minutes > 59 || hours > 23 then none
    else some (some (Text.signed negative ((hours * 60 + minutes) * 60)))

def readIso? (t : Text) : Option Timestamp := do
  let (days, rest) ← readDate? t
  match rest with
  | [] => pure ⟨days * microsPerDay, none⟩
  | c :: rest =>
    if c = 84 || c = 116 || c = 32 || c = 95 then do
      let (micros, rest) ← readTime? rest
      let offset ← readOffset? rest
      pure ⟨days * microsPerDay + micros, offset⟩
    else none

def secondsLimit : Nat := 20000000000

/-- A count since the start of 1970 in universal time, with microseconds to be added: of seconds up to
twenty thousand millions, of milliseconds beyond. -/
def ofCount? (count : Int) (micros : Nat) : Option Timestamp :=
  let base := if count.natAbs ≤ secondsLimit then count * 1000000 else count * 1000
  let wall := base + micros
  if earliestNamed ≤ wall && wall ≤ latest then some ⟨wall, some 0⟩ else none

/-- A count with a fraction, in the arithmetic of its numbers. Milliseconds are first made seconds; the
fraction is rounded to a microsecond, a half up. -/
def ofReal? (x : Binary64) : Option Timestamp := do
  let (num, den) ← x.toRatio?
  let (num, den) ←
    if num.natAbs > secondsLimit * den then (Binary64.ofFraction num (den * 1000)).toRatio? else some (num, den)
  let (part, unit) ← (Binary64.ofFraction (num % den) den).toRatio?
  let (micros, unit) ← (Binary64.ofFraction (part * 1000000) unit).toRatio?
  ofCount? (num / den) ((2 * micros.toNat + unit) / (2 * unit))

def readCount? (t : Text) : Option Timestamp :=
  let (negative, body) := Text.splitSign t
  let whole := body.takeWhile Text.isDigit
  let count := Text.ofDigits (whole.filterMap Text.asciiDigit?)
  if count ≥ 0x8000000000000000 then none
  else match body.dropWhile Text.isDigit with
    | [] => if whole.isEmpty then none else ofCount? (Text.signed negative count) 0
    | 46 :: _ => (Binary64.readDecimal? t).bind ofReal?
    | _ => none

def read? (t : Text) : Option Timestamp := (readIso? t).or (readCount? t)

end Timestamp

end Strongbox
