/-
  TrinoGateway.Types.Temporal — dates and times of `src/types.rs`: `truncate_fraction`, the
  parsers of Trino's renderings and the two renderers for PostgreSQL.

  `chrono` and `chrono-tz` are a parameter (`Chrono`): their parsers for the formats the
  code names, the zones, and the formatter. Days count from 2000-01-01, the epoch of
  PostgreSQL's binary formats.
-/

import TrinoGateway.Lib.Numeral
import TrinoGateway.Lib.Wire
import TrinoGateway.Lib.Calendar

namespace TrinoGateway.Types

open TrinoGateway.Lib

/-- `NaiveTime`: seconds since midnight, and nanoseconds; a leap second is the second
    before it with a thousand million nanoseconds or more. -/
structure NaiveTime where
  secs : ℕ
  nanos : ℕ
  secs_lt : secs < 86400
  nanos_lt : nanos < 2000000000
  deriving DecidableEq

structure NaiveDateTime where
  /-- Days from 2000-01-01. -/
  date : ℤ
  time : NaiveTime
  deriving DecidableEq

/-- Seconds from 2000-01-01 00:00. -/
def NaiveDateTime.seconds (dt : NaiveDateTime) : ℤ := 86400 * dt.date + dt.time.secs

/-- The date and time `n` seconds after 2000-01-01 00:00. -/
def ofSeconds (n : ℤ) (nanos : ℕ) (h : nanos < 2000000000) : NaiveDateTime where
  date := n / 86400
  time := ⟨(n % 86400).toNat, nanos, by omega, h⟩

def NaiveDateTime.withSeconds (dt : NaiveDateTime) (n : ℤ) : NaiveDateTime := ofSeconds n dt.time.nanos dt.time.nanos_lt

/-- Moved by whole seconds. -/
def NaiveDateTime.shift (dt : NaiveDateTime) (s : ℤ) : NaiveDateTime := dt.withSeconds (dt.seconds + s)

/-- `signed_duration_since(2000-01-01).num_microseconds()`, which rounds towards zero. -/
def NaiveDateTime.numMicroseconds (dt : NaiveDateTime) : ℤ :=
  (dt.seconds * 1000000000 + dt.time.nanos).tdiv 1000

def NaiveTime.numMicroseconds (t : NaiveTime) : ℤ := ((t.secs : ℤ) * 1000000000 + t.nanos).tdiv 1000

/-- A time zone: the offset to UTC in seconds (east is positive) at every second; it is
    less than a day. -/
structure Tz where
  offsetAt : ℤ → ℤ
  bounded : ∀ s, -86400 < offsetAt s ∧ offsetAt s < 86400

/-- Between date and time. -/
inductive Separator where
  | space
  | t
  deriving DecidableEq, Repr

def Separator.char : Separator → Char
  | .space => ' '
  | .t => 'T'

/-- The formats and conversions the code takes from `chrono` and `chrono-tz`. -/
structure Chrono where
  /-- `DateTime::parse_from_str` with `%Y-%m-%d`, the separator, `%H:%M:%S%.f`, a space or
      none, and `%#z`: the local date and time, and the offset in seconds east. -/
  parseDateTime : Separator → Bool → Text → Option (NaiveDateTime × ℤ)
  /-- `NaiveDateTime::parse_from_str` with `%Y-%m-%d`, the separator and `%H:%M:%S%.f`. -/
  parseNaive : Separator → Text → Option NaiveDateTime
  /-- `NaiveDate::parse_from_str` with `%Y-%m-%d`. -/
  parseDate : Text → Option ℤ
  /-- `NaiveTime::parse_from_str` with `%H:%M:%S%.f`. -/
  parseTime : Text → Option NaiveTime
  /-- `Tz::from_str`. -/
  parseZone : Text → Option Tz
  /-- `from_local_datetime(..).single()`, as a UTC date and time. -/
  single : Tz → NaiveDateTime → Option NaiveDateTime
  /-- `format("%Y-%m-%d %H:%M:%S")`. -/
  formatDateTime : NaiveDateTime → Text
  /-- `format("%H:%M:%S")`. -/
  formatTime : NaiveTime → Text

/-! ## Parsing -/

/-- Shorten a fractional-second field longer than nine digits. -/
def truncateFraction (s : Text) : Text :=
  match s.idxOf? '.' with
  | none => s
  | some dot =>
    let fractionStart := dot + 1
    let fractionLen := ((s.drop fractionStart).takeWhile Char.isDigit).length
    if fractionLen ≤ 9 then s else s.take (fractionStart + 9) ++ s.drop (fractionStart + fractionLen)

variable (C : Chrono)

def parseNaiveDatetime (s : Text) : Option NaiveDateTime :=
  let s := truncateFraction s
  (C.parseNaive .space s).or (C.parseNaive .t s)

/-- The four formats with an offset, in the order they are tried. -/
def offsetFormats : List (Separator × Bool) := [(.space, false), (.space, true), (.t, false), (.t, true)]

/-- Trino's `timestamp with time zone`, as a UTC date and time. -/
def parseTrinoTimestamptz (s : Text) : Option NaiveDateTime :=
  let s := truncateFraction (trim s)
  match offsetFormats.findSome? fun f => C.parseDateTime f.1 f.2 s with
  | some (dt, offset) => some (dt.shift (-offset))
  | none => do
    let (stamp, zone) ← rsplitOnce ' ' s
    let tz ← C.parseZone zone
    let naive ← parseNaiveDatetime C (trim stamp)
    C.single tz naive

structure TimeTz where
  time : NaiveTime
  offsetEastSeconds : ℤ
  deriving DecidableEq

/-- Trino's `time with time zone`, read with a date lent to it. -/
def parseTrinoTimetz (s : Text) : Option TimeTz :=
  let dated := "2000-01-01 ".toList ++ truncateFraction (trim s)
  ([(.space, false), (.space, true)].findSome? fun f => C.parseDateTime f.1 f.2 dated).map
    fun p => ⟨p.1.time, p.2⟩

/-! ## Rendering -/

def formatFraction (nanoseconds : ℕ) : Text :=
  let micros := min (nanoseconds / 1000) 999999
  if micros = 0 then [] else trimZeros ('.' :: pad 6 micros)

def formatUtcOffset (secondsEast : ℤ) : Text :=
  let sign := if secondsEast < 0 then '-' else '+'
  let total := secondsEast.natAbs
  let (hours, minutes, seconds) := (total / 3600, total % 3600 / 60, total % 60)
  if seconds ≠ 0 then sign :: pad 2 hours ++ ':' :: pad 2 minutes ++ ':' :: pad 2 seconds
  else if minutes ≠ 0 then sign :: pad 2 hours ++ ':' :: pad 2 minutes
  else sign :: pad 2 hours

def renderTimestamptzText (dt : NaiveDateTime) : Text :=
  C.formatDateTime dt ++ formatFraction dt.time.nanos ++ "+00".toList

def TimeTz.toPgText (t : TimeTz) : Text :=
  C.formatTime t.time ++ formatFraction t.time.nanos ++ formatUtcOffset t.offsetEastSeconds

/-- `timetz_send`: microseconds since midnight, then the offset in seconds west. -/
def TimeTz.toSql (t : TimeTz) : List UInt8 := putInt 8 t.time.numMicroseconds ++ putInt 4 (-t.offsetEastSeconds)

end TrinoGateway.Types
