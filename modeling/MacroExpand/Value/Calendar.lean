import MacroExpand.Number.Shortest
import MacroExpand.Text.Quoted
import MacroExpand.Text.Lines
import MacroExpand.Text.Utf8

/-!
# Dates, times and durations

Proleptic Gregorian dates from year 1 to 9999, times of day with an optional offset from universal
time, and durations in whole microseconds.  Their texts follow ISO 8601.
-/

set_option autoImplicit false

namespace MacroExpand

structure Date where
  year : Nat
  month : Nat
  day : Nat
  deriving DecidableEq, Repr, Inhabited

/-- A span of time in microseconds. -/
structure Duration where
  micros : Int
  deriving DecidableEq, Repr, Inhabited

structure TimeOfDay where
  hour : Nat
  minute : Nat
  second : Nat
  micro : Nat
  offset : Option Duration := none
  deriving DecidableEq, Repr, Inhabited

structure DateTime where
  date : Date
  time : TimeOfDay
  deriving DecidableEq, Repr, Inhabited

def paddedDigits (width n : Nat) : Text :=
  let digits := decimalDigits n
  List.replicate (width - digits.length) '0' ++ digits

namespace Duration

def ofParts (days seconds micros : Int) : Duration :=
  ⟨(days * 86400 + seconds) * 1000000 + micros⟩

def days (d : Duration) : Int := Int.fdiv d.micros 86400000000

def seconds (d : Duration) : Int := Int.fdiv (Int.fmod d.micros 86400000000) 1000000

def microseconds (d : Duration) : Int := Int.fmod d.micros 1000000

end Duration

namespace Date

def isLeap (year : Nat) : Bool := year % 4 == 0 && (year % 100 != 0 || year % 400 == 0)

def daysInMonth (year month : Nat) : Nat :=
  match month with
  | 2 => if isLeap year then 29 else 28
  | 4 | 6 | 9 | 11 => 30
  | _ => 31

def daysBeforeYear (year : Nat) : Nat :=
  let y := year - 1
  y * 365 + y / 4 - y / 100 + y / 400

def daysBeforeMonth (year month : Nat) : Nat :=
  ((List.range (month - 1)).map fun k => daysInMonth year (k + 1)).sum

def ordinal (d : Date) : Nat := daysBeforeYear d.year + daysBeforeMonth d.year d.month + d.day

def splitDays (year : Nat) : Nat → Nat → Nat → Nat × Nat
  | 0, month, rest => (month, rest)
  | fuel + 1, month, rest =>
    let size := daysInMonth year month
    if rest < size then (month, rest) else splitDays year fuel (month + 1) (rest - size)

def ofOrdinal (n : Nat) : Date :=
  let n := n - 1
  let cycles := n / 146097
  let n := n % 146097
  let centuries := n / 36524
  let n' := n % 36524
  let fours := n' / 1461
  let n'' := n' % 1461
  let years := n'' / 365
  let rest := n'' % 365
  let year := cycles * 400 + centuries * 100 + fours * 4 + years + 1
  if years = 4 ∨ centuries = 4 then ⟨year - 1, 12, 31⟩
  else
    let (month, day) := splitDays year 12 1 rest
    ⟨year, month, day + 1⟩

def weekday (d : Date) : Nat := (d.ordinal + 6) % 7

def text (d : Date) : Text :=
  paddedDigits 4 d.year ++ '-' :: (paddedDigits 2 d.month ++ '-' :: paddedDigits 2 d.day)

def check (d : Date) : Option String :=
  if d.year < 1 ∨ 9999 < d.year then
    some ("year " ++ toString d.year ++ " is out of range")
  else if d.month < 1 ∨ 12 < d.month then some "month must be in 1..12"
  else if d.day < 1 ∨ daysInMonth d.year d.month < d.day then some "day is out of range for month"
  else none

end Date

namespace TimeOfDay

def check (t : TimeOfDay) : Option String :=
  if 23 < t.hour then some "hour must be in 0..23"
  else if 59 < t.minute then some "minute must be in 0..59"
  else if 59 < t.second then some "second must be in 0..59"
  else if 999999 < t.micro then some "microsecond must be in 0..999999"
  else none

def offsetText (offset : Duration) : Text :=
  let total := offset.micros.natAbs
  let seconds := total / 1000000
  let micros := total % 1000000
  let sign := if offset.micros < 0 then '-' else '+'
  let base := sign :: (paddedDigits 2 (seconds / 3600) ++ ':' :: paddedDigits 2 (seconds / 60 % 60))
  let base := if seconds % 60 = 0 ∧ micros = 0 then base
    else base ++ ':' :: paddedDigits 2 (seconds % 60)
  if micros = 0 then base else base ++ '.' :: paddedDigits 6 micros

def text (t : TimeOfDay) : Text :=
  let base := paddedDigits 2 t.hour ++ ':' :: (paddedDigits 2 t.minute ++ ':' :: paddedDigits 2 t.second)
  let base := if t.micro = 0 then base else base ++ '.' :: paddedDigits 6 t.micro
  match t.offset with
  | none => base
  | some offset => base ++ offsetText offset

def sinceMidnight (t : TimeOfDay) : Nat :=
  ((t.hour * 60 + t.minute) * 60 + t.second) * 1000000 + t.micro

def ofMicros (n : Nat) (offset : Option Duration) : TimeOfDay :=
  ⟨n / 3600000000, n / 60000000 % 60, n / 1000000 % 60, n % 1000000, offset⟩

end TimeOfDay

namespace DateTime

def textWith (between : Char) (t : DateTime) : Text := t.date.text ++ between :: t.time.text

def text (t : DateTime) : Text := t.textWith 'T'

def micros (t : DateTime) : Int := (t.date.ordinal : Int) * 86400000000 + t.time.sinceMidnight

def add (t : DateTime) (d : Duration) : Option DateTime :=
  let total := t.micros + d.micros
  let day := Int.fdiv total 86400000000
  if day < 1 ∨ 3652059 < day then none
  else some ⟨Date.ofOrdinal day.toNat,
    TimeOfDay.ofMicros (Int.fmod total 86400000000).toNat t.time.offset⟩

end DateTime

/-! ## Reading

Texts are read as bytes that a zero byte ends.  A date says by its fifth and sixth byte which form it
has.  A clock reading is up to three pairs of digits and a fraction; an offset is one more clock
reading behind a sign. -/

namespace Calendar

abbrev Bytes := Array UInt8

def byteAt (bytes : Bytes) (place : Nat) : Char := Char.ofNat (bytes.getD place 0).toNat

def number (bytes : Bytes) (place count : Nat) : Option Nat :=
  let digits := (List.range count).map fun k => byteAt bytes (place + k)
  if digits.all Char.isDigit then some (digits.foldl (fun n c => n * 10 + (c.toNat - 48)) 0) else none

def weekDate (year week day : Nat) : Option Date :=
  let firstWeekday := (Date.weekday ⟨year, 1, 1⟩)
  let has53 := firstWeekday == 3 || (firstWeekday == 2 && Date.isLeap year)
  if year < 1 || week < 1 || 53 < week || (week == 53 && !has53) || day < 1 || 7 < day then none
  else
    let jan1 := Date.ordinal ⟨year, 1, 1⟩
    let monday : Int := (jan1 : Int) - firstWeekday + (if firstWeekday > 3 then 7 else 0)
    some (Date.ofOrdinal (monday + (week - 1) * 7 + (day - 1)).toNat)

/-- Read a date in one of the forms `YYYY-MM-DD`, `YYYYMMDD`, `YYYY-Www-D` and `YYYYWwwD` from the
first bytes, `size` of which belong to it. -/
def readDate (bytes : Bytes) (size : Nat) : Option Date := do
  let year ← number bytes 0 4
  let dashed := byteAt bytes 4 == '-'
  let pos := if dashed then 5 else 4
  if byteAt bytes pos == 'W' then
    let week ← number bytes (pos + 1) 2
    let pos := pos + 3
    if size ≤ pos then weekDate year week 1
    else
      guard (!dashed || byteAt bytes pos == '-')
      let pos := if dashed then pos + 1 else pos
      weekDate year week (← number bytes pos 1)
  else
    let month ← number bytes pos 2
    let pos := pos + 2
    guard (!dashed || byteAt bytes pos == '-')
    let pos := if dashed then pos + 1 else pos
    return ⟨year, month, ← number bytes pos 2⟩

def readFraction (bytes : Bytes) (place stop : Nat) : Option (Nat × Bool) := do
  let count := min 6 (stop - place)
  let n ← number bytes place count
  let tail := (bytes.toList.drop (place + count)).dropWhile fun b => 48 ≤ b && b ≤ 57
  return (n * 10 ^ (6 - count), !(tail.headD 0 == 0))

/-- Read pairs of digits up to a place, which are divided by colons or stand together, and a
fraction; `parts` holds the pairs read so far.  Tells whether something stands behind. -/
def readPairs (bytes : Bytes) (stop : Nat) (colons : Bool) :
    Nat → Nat → List Nat → Option (List Nat × Nat × Bool)
  | 0, place, parts => do
      let (micros, more) ← readFraction bytes place stop
      return (parts, micros, more)
  | left + 1, place, parts => do
      let parts := parts ++ [← number bytes place 2]
      let c := byteAt bytes (place + 2)
      let colons := if parts.length = 1 then c == ':' else colons
      let place := place + 3
      if stop ≤ place then return (parts, 0, c != '\x00')
      else if colons && c == ':' then readPairs bytes stop colons left place parts
      else if c == '.' || c == ',' then
        let (micros, more) ← readFraction bytes place stop
        return (parts, micros, more)
      else if !colons then readPairs bytes stop colons left (place - 1) parts
      else none

def readClock (bytes : Bytes) (place stop : Nat) : Option ((Nat × Nat × Nat × Nat) × Bool) := do
  let (parts, micros, more) ← readPairs bytes stop true 3 place []
  return ((parts.getD 0 0, parts.getD 1 0, parts.getD 2 0, micros), more)

/-- The first place at or behind a place that begins an offset, or the place behind the last byte;
at least one byte is passed over. -/
def offsetPlace (bytes : Bytes) (place : Nat) : Nat :=
  let isOffset := fun c => c == '+' || c == '-' || c == 'Z'
  if isOffset (byteAt bytes place) then place
  else
    let rest := (bytes.toList.drop (place + 1)).map fun b => Char.ofNat b.toNat
    place + 1 + (rest.takeWhile (!isOffset ·)).length

def offsetFault (offset : Int) : String :=
  let parts := [("days", Int.fdiv offset 86400000000),
    ("seconds", Int.fdiv (Int.fmod offset 86400000000) 1000000),
    ("microseconds", Int.fmod offset 1000000)]
  "offset must be a timedelta strictly between -timedelta(hours=24) and timedelta(hours=24), not " ++
    "datetime.timedelta(" ++ ", ".intercalate ((parts.filter fun p => p.2 ≠ 0).map fun (name, n) =>
      name ++ "=" ++ toString n) ++ ")."

/-- Read a time of day with an optional offset from a place on; the outer level says whether the text
has the form of one.  The fraction of an offset counts only with whole seconds. -/
def readTime (bytes : Bytes) (place : Nat) : Option (Except String TimeOfDay) := do
  let split := offsetPlace bytes place
  let ((hour, minute, second, micro), more) ← readClock bytes place split
  let time := fun (offset : Option Duration) =>
    (.ok ⟨hour, minute, second, micro, offset⟩ : Except String TimeOfDay)
  if split = bytes.size then
    guard !more
    return time none
  else if byteAt bytes split == 'Z' then
    guard (byteAt bytes (split + 1) == '\x00')
    return time (some ⟨0⟩)
  else
    let ((h, m, s, us), more) ← readClock bytes (split + 1) bytes.size
    guard !more
    let seconds : Int := (h * 60 + m) * 60 + s
    let sign : Int := if byteAt bytes split == '-' then -1 else 1
    let size := if seconds = 0 then 0 else sign * (seconds * 1000000 + us)
    if size.natAbs < 86400000000 then return time (some ⟨size⟩)
    else return .error (offsetFault size)

def separator (bytes : Bytes) : Nat :=
  let isDigit := fun place => (byteAt bytes place).isDigit
  if bytes.size = 7 then 7
  else if byteAt bytes 4 == '-' then
    if byteAt bytes 5 == 'W' then
      if 8 < bytes.size && byteAt bytes 8 == '-' then
        if 10 < bytes.size && isDigit 10 then 8 else 10
      else 8
    else 10
  else if byteAt bytes 4 == 'W' then
    let stop := 7 + ((bytes.toList.drop 7).takeWhile fun b => 48 ≤ b && b ≤ 57).length
    if stop < 9 then stop else if stop % 2 = 0 then 7 else 8
  else 8

def characterSize (bytes : Bytes) (place : Nat) : Nat :=
  let b := (bytes.getD place 0).toNat
  if b < 128 then 1 else if b / 16 = 14 then 3 else if b / 16 = 15 then 4 else 2

def malformed (text : Text) : String :=
  "Invalid isoformat string: " ++ String.ofList (Text.quoted text)

def checked {α : Type} (text : Text) (check : α → Option String) :
    Option (Except String α) → Except String α
  | none => .error (malformed text)
  | some (.error why) => .error why
  | some (.ok a) =>
    match check a with
    | none => .ok a
    | some why => .error why

end Calendar

def Date.ofIso (text : Text) : Except String Date :=
  let bytes := text.utf8.toArray
  let size := bytes.size
  let found := if size = 7 ∨ size = 8 ∨ size = 10 then Calendar.readDate bytes size else none
  Calendar.checked text Date.check (found.map .ok)

def TimeOfDay.ofIso (text : Text) : Except String TimeOfDay :=
  let bytes := text.utf8.toArray
  Calendar.checked text TimeOfDay.check
    (Calendar.readTime bytes (if Calendar.byteAt bytes 0 == 'T' then 1 else 0))

def DateTime.check (t : DateTime) : Option String := t.date.check.or t.time.check

def DateTime.ofIso (text : Text) : Except String DateTime :=
  let bytes := text.utf8.toArray
  let split := Calendar.separator bytes
  let time := if bytes.size ≤ split + 1 then some (.ok ⟨0, 0, 0, 0, none⟩)
    else Calendar.readTime bytes (split + Calendar.characterSize bytes split)
  let found : Option (Except String DateTime) := do
    guard (7 ≤ bytes.size)
    let date ← Calendar.readDate bytes split
    return (← time).map fun time => ⟨date, time⟩
  Calendar.checked text DateTime.check found

end MacroExpand
