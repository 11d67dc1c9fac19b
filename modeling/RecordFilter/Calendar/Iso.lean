import RecordFilter.Calendar.Clock

/-!
# Reading dates and times

Dates, times of day and moments from the notation of ISO 8601, in its extended and basic forms and
with weeks. The reader is lenient in a few places that callers rely on: any one character may
separate date and time, and so may a surrogate, which may stand nowhere else; one character of ASCII
may stand in front of the distance from universal time, and digits of the fraction beyond the sixth
are ignored together with what follows them up to that distance. Where nothing more may follow, a
NUL may, and what is behind it is not looked at (`isEnd`). `moment?` and `timeOfDay?` are `none` for
every other text, and for dates and clock readings that do not exist.
-/

namespace RecordFilter.Iso

/-- Reads exactly `count` digits of ASCII. -/
def digits? (count : Nat) (cs : List Char) : Option (Nat × List Char) :=
  let ds := cs.take count
  if ds.length = count && ds.all Char.isDigit then
    some (ds.foldl (fun n c => 10 * n + (c.toNat - 48)) 0, cs.drop count)
  else none

/-- The character at a place is `c`. -/
def hasAt (cs : List Char) (place : Nat) (c : Char) : Bool :=
  cs[place]? == some c

/-- The character at a place is a digit. -/
def digitAt (cs : List Char) (place : Nat) : Bool :=
  cs[place]?.any Char.isDigit

/-- The number of characters that form the date of a moment. -/
def dateLength (cs : List Char) : Nat :=
  if cs.length = 7 then 7
  else if hasAt cs 4 '-' then
    if hasAt cs 5 'W' then
      if hasAt cs 8 '-' then (if digitAt cs 10 then 8 else 10) else 8
    else 10
  else if hasAt cs 4 'W' then
    let place := 7 + ((cs.drop 7).takeWhile Char.isDigit).length
    if place < 9 then place else if place % 2 = 0 then 7 else 8
  else 8

/-- Reads the hyphen between the parts of a date in the extended form. -/
def hyphen? (extended : Bool) (cs : List Char) : Option (List Char) :=
  if extended then
    match cs with
    | '-' :: rest => some rest
    | _ => none
  else some cs

/-- Reads the week and the optional day of a date that is `length` characters long, of which
`used` have been read. -/
def week? (length used year : Nat) (extended : Bool) (cs : List Char) : Option Date := do
  let (week, rest) ← digits? 2 cs
  if used + 2 < length then
    let rest ← hyphen? extended rest
    let (weekday, _) ← digits? 1 rest
    Date.ofWeek? year week weekday
  else Date.ofWeek? year week 1

/-- Reads the date at the start of `cs`, which is `length` characters long. -/
def date? (length : Nat) (cs : List Char) : Option Date := do
  let (year, rest) ← digits? 4 cs
  let extended := hasAt rest 0 '-'
  let rest := if extended then rest.drop 1 else rest
  match rest with
  | 'W' :: rest => week? length (if extended then 6 else 5) year extended rest
  | _ =>
    let (month, rest) ← digits? 2 rest
    let rest ← hyphen? extended rest
    let (day, _) ← digits? 2 rest
    Date.ofParts? year month day

/-- The text ends here, or at a NUL. -/
def isEnd (cs : List Char) : Bool :=
  cs.head?.all (·.toNat == 0)

/-- Reads up to six digits of a fraction of a second. The flag tells whether anything but further
digits is left. -/
def fraction? (cs : List Char) : Option (Nat × Bool) := do
  let count := min 6 cs.length
  let (n, rest) ← digits? count cs
  some (n * Nat.pow 10 (6 - count), !isEnd (rest.dropWhile Char.isDigit))

/-- Reads the parts of a clock reading from the `index`-th on, `cs` being the text up to the end
of the reading; `read` are the parts before it, last one first. The flag tells whether something
is left over. -/
def clockParts? (separated : Bool) (read : List Nat) :
    Nat → List Char → Option (List Nat × Nat × Bool)
  | 0, cs => (fraction? cs).map fun (micro, extra) => (read.reverse, micro, extra)
  | todo + 1, cs => do
    let (n, rest) ← digits? 2 cs
    let read := n :: read
    match rest with
    | [] => some (read.reverse, 0, false)
    | [c] => if c.toNat < 128 then some (read.reverse, 0, !isEnd [c]) else none
    | c :: more =>
      let separated := if read.length = 1 then c == ':' else separated
      if separated && c == ':' then clockParts? separated read todo more
      else if c == '.' || c == ',' then
        (fraction? more).map fun (micro, extra) => (read.reverse, micro, extra)
      else if separated then none
      else clockParts? separated read todo rest

/-- Reads hours, minutes, seconds and a fraction; what is left out is zero. -/
def reading? (cs : List Char) : Option (Clock × Bool) := do
  let (parts, micro, extra) ← clockParts? true [] 3 cs
  some (⟨parts[0]?.getD 0, parts[1]?.getD 0, parts[2]?.getD 0, micro⟩, extra)

/-- The character that starts the distance from universal time. -/
def startsOffset (c : Char) : Bool :=
  c == '+' || c == '-' || c == 'Z'

/-- Reads the distance from universal time; no text is no distance. A distance of less than a
second counts as none at all. -/
def offset? : List Char → Option (Option Offset)
  | [] => some none
  | c :: cs =>
    if c = 'Z' then (if isEnd cs then some (some 0) else none)
    else do
      let (span, extra) ← reading? cs
      let n : Nat := if span.seconds = 0 then 0 else span.microseconds
      let o : Offset := if c = '-' then -(n : Int) else n
      if extra || !Offset.isValid o then none else some (some o)

/-- Reads a time of day. A character may be left over in front of the distance from universal
time, but not at the end of the text. -/
def timeParts? (cs : List Char) : Option TimeOfDay := do
  let (clock, extra) ← reading? (cs.takeWhile fun c => !startsOffset c)
  let zone := cs.dropWhile fun c => !startsOffset c
  if extra && zone.isEmpty then none
  else
    let offset ← offset? zone
    if clock.isValid then some ⟨clock, offset⟩ else none

/-- Reads a time of day, which may begin with a `T`. -/
def timeOfDay? (s : Text) : Option TimeOfDay := do
  match ← s.chars? with
  | 'T' :: cs => timeParts? cs
  | cs => timeParts? cs

/-- A text with a `T` in place of a surrogate that may separate date and time. -/
def withPlainSeparator (s : Text) : Text :=
  match [7, 8, 10].find? fun place => s.points[place]?.any CodePoint.isSurrogate with
  | some place => ⟨s.points.set place 'T'⟩
  | none => s

/-- Reads a moment: a date, alone or followed by any one character and a time of day. -/
def moment? (s : Text) : Option Moment := do
  let cs ← (withPlainSeparator s).chars?
  if cs.length < 7 then none
  else
    let length := dateLength cs
    let date ← date? length cs
    match cs.drop length with
    | [] => some (Moment.ofDate date)
    | _ :: rest => (timeParts? rest).map (Moment.mk date)

/-- Reads a date that is followed by nothing. -/
def dateOnly? (s : Text) : Option Date := do
  let cs ← s.chars?
  if cs.length = 7 || cs.length = 8 || cs.length = 10 then date? cs.length cs else none

end RecordFilter.Iso
