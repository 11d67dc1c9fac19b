import RecordFilter.Calendar.Date

/-!
# Times of day and moments

A clock reading has microseconds as its smallest unit; a time of day is a clock reading that may
carry its distance from universal time, and a moment is a date with a time of day. Moments compare
by the instant they denote. A value with a distance from universal time and one without cannot be
compared: `TimeOfDay.order?` and `Moment.order?` are `none` then.
-/

namespace RecordFilter

/-- A clock reading. -/
structure Clock where
  hour : Nat
  minute : Nat
  second : Nat
  microsecond : Nat
deriving DecidableEq, Repr, Inhabited

/-- A distance from universal time in microseconds, positive to the east. -/
abbrev Offset := Int

/-- A clock reading, possibly with a distance from universal time. -/
structure TimeOfDay where
  clock : Clock
  offset : Option Offset
deriving DecidableEq, Repr, Inhabited

/-- A date with a time of day. -/
structure Moment where
  date : Date
  time : TimeOfDay
deriving DecidableEq, Repr, Inhabited

namespace Clock

/-- Midnight. -/
def midnight : Clock := ⟨0, 0, 0, 0⟩

/-- The clock shows this reading at some time of the day. -/
def isValid (c : Clock) : Bool :=
  c.hour < 24 && c.minute < 60 && c.second < 60 && c.microsecond < 1000000

/-- Whole seconds since midnight. -/
def seconds (c : Clock) : Nat :=
  c.hour * 3600 + c.minute * 60 + c.second

/-- Microseconds since midnight. -/
def microseconds (c : Clock) : Nat :=
  c.seconds * 1000000 + c.microsecond

/-- Hours, minutes and seconds with colons, and six decimal places if there are microseconds. -/
def text (c : Clock) : String :=
  Text.padded 2 c.hour ++ ":" ++ Text.padded 2 c.minute ++ ":" ++ Text.padded 2 c.second ++
    if c.microsecond = 0 then "" else "." ++ Text.padded 6 c.microsecond

/-- The parts of a reading that are shown: hour and minute always, the others when needed. -/
def shownParts (c : Clock) : List String :=
  [Text.ofNat c.hour, Text.ofNat c.minute] ++
    if c.microsecond ≠ 0 then [Text.ofNat c.second, Text.ofNat c.microsecond]
    else if c.second ≠ 0 then [Text.ofNat c.second]
    else []

end Clock

namespace Offset

/-- Microseconds in a second. -/
def perSecond : Int := 1000000

/-- Microseconds in a day. -/
def perDay : Int := 86400 * perSecond

/-- A distance from universal time is less than a day. -/
def isValid (o : Offset) : Bool :=
  -perDay < o && o < perDay

/-- The whole seconds of the distance, rounded down. -/
def seconds (o : Offset) : Int :=
  Int.fdiv o perSecond

/-- Sign, hours and minutes, followed by seconds and microseconds where there are any. -/
def text (o : Offset) : String :=
  let n := o.natAbs
  let micro := n % 1000000
  let sec := n / 1000000
  (if o < 0 then "-" else "+") ++ Text.padded 2 (sec / 3600) ++ ":" ++
    Text.padded 2 (sec / 60 % 60) ++
    (if sec % 60 = 0 && micro = 0 then "" else ":" ++ Text.padded 2 (sec % 60)) ++
    if micro = 0 then "" else "." ++ Text.padded 6 micro

/-- A distance as whole days, seconds and microseconds, each shown when it is not zero. -/
def displaySpan (o : Offset) : String :=
  let days := Int.fdiv o perDay
  let rest := (o - days * perDay).toNat
  let parts : List String :=
    (if days = 0 then [] else ["days=" ++ Text.ofInt days]) ++
    (if rest / 1000000 = 0 then [] else ["seconds=" ++ Text.ofNat (rest / 1000000)]) ++
    (if rest % 1000000 = 0 then [] else ["microseconds=" ++ Text.ofNat (rest % 1000000)])
  "datetime.timedelta(" ++ (if parts.isEmpty then "0" else ", ".intercalate parts) ++ ")"

/-- How a distance from universal time is shown inside lists and messages. -/
def display (o : Offset) : String :=
  if o = 0 then "datetime.timezone.utc" else "datetime.timezone(" ++ displaySpan o ++ ")"

/-- The part of a shown time that names its distance from universal time. -/
def displayPart : Option Offset → List String
  | none => []
  | some o => ["tzinfo=" ++ display o]

end Offset

namespace TimeOfDay

/-- The order of two times of day: by the whole second that universal time shows, then by the
microsecond of the reading. -/
def order? (a b : TimeOfDay) : Option Ordering :=
  match a.offset, b.offset with
  | none, none => some (compare a.clock.microseconds b.clock.microseconds)
  | some p, some q =>
    some ((compare ((a.clock.seconds : Int) - Offset.seconds p)
      ((b.clock.seconds : Int) - Offset.seconds q)).then
        (compare a.clock.microsecond b.clock.microsecond))
  | _, _ => none

/-- The clock reading and the distance from universal time. -/
def text (t : TimeOfDay) : String :=
  t.clock.text ++ (t.offset.map Offset.text).getD ""

/-- How a time of day is shown inside lists and messages. -/
def display (t : TimeOfDay) : String :=
  "datetime.time(" ++ ", ".intercalate (t.clock.shownParts ++ Offset.displayPart t.offset) ++ ")"

end TimeOfDay

namespace Moment

/-- The moment at which a day begins. -/
def ofDate (d : Date) : Moment :=
  ⟨d, Clock.midnight, none⟩

/-- Microseconds since the day before day 1, on the clock of the moment. -/
def microseconds (m : Moment) : Int :=
  (m.date.ordinal : Int) * Offset.perDay + m.time.clock.microseconds

/-- The order of two moments in time. -/
def order? (a b : Moment) : Option Ordering :=
  match a.time.offset, b.time.offset with
  | none, none => some (compare a.microseconds b.microseconds)
  | some p, some q => some (compare (a.microseconds - p) (b.microseconds - q))
  | _, _ => none

/-- Date and time of day with `separator` between them. -/
def textWith (separator : String) (m : Moment) : String :=
  m.date.text ++ separator ++ m.time.text

/-- The standard text, with a `T` between date and time. -/
def isoText (m : Moment) : String :=
  textWith "T" m

/-- The plain text, with a space between date and time. -/
def text (m : Moment) : String :=
  textWith " " m

/-- How a moment is shown inside lists and messages. -/
def display (m : Moment) : String :=
  "datetime.datetime(" ++
    ", ".intercalate
      ([Text.ofNat m.date.year, Text.ofNat m.date.month, Text.ofNat m.date.day] ++
        m.time.clock.shownParts ++ Offset.displayPart m.time.offset) ++ ")"

end Moment

end RecordFilter
