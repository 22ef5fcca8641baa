import MacroExpand.Value.Calendar

/-!
# Dates and times in other forms

A pattern is copied, except that a percent sign with a letter stands for a part of a moment.
-/

set_option autoImplicit false

namespace MacroExpand

namespace CalendarText

def dayNames : List String :=
  ["Monday", "Tuesday", "Wednesday", "Thursday", "Friday", "Saturday", "Sunday"]

def monthNames : List String :=
  ["January", "February", "March", "April", "May", "June", "July", "August", "September",
    "October", "November", "December"]

def compactOffset (offset : Option Duration) : Text :=
  match offset with
  | none => []
  | some o => (TimeOfDay.offsetText o).filter (· != ':')

def dayOfYear (d : Date) : Nat := Date.daysBeforeMonth d.year d.month + d.day

/-- The year and number of the week that a day belongs to, where weeks begin on Monday and the
first one holds the first Thursday. -/
def week (d : Date) : Nat × Nat :=
  let monday := fun (year : Nat) =>
    let jan1 : Date := ⟨year, 1, 1⟩
    (jan1.ordinal : Int) - jan1.weekday + (if jan1.weekday > 3 then 7 else 0)
  let n : Int := d.ordinal
  let year := if n < monday d.year then d.year - 1
    else if monday (d.year + 1) ≤ n then d.year + 1 else d.year
  (year, ((n - monday year) / 7 + 1).toNat)

/-- A part of a moment before it is filled up. -/
inductive Part where
  /-- A number with at least some digits, filled up with zeros or with blanks. -/
  | number (digits n : Nat) (blanks : Bool)
  /-- A word; its case can be changed, to small letters if `lowers`. -/
  | word (text : Text) (lowers : Bool)

/-- How a part is written: the sign that fills it up, whether and how its case is changed, its least
width, and the letter in front of the one that names it. -/
structure Style where
  fill : Option Char := none
  uppers : Bool := false
  swaps : Bool := false
  width : Nat := 0
  modifier : Option Char := none
  deriving DecidableEq, Repr, Inhabited

def modified (modifier letter : Char) : Bool :=
  if modifier = 'E' then (chars "cCxXyY").contains letter
  else (chars "BbdeghHIjklmMSuUVwWyG").contains letter

def Style.widened (s : Style) (t : Text) : Text :=
  List.replicate (s.width - t.length) (if s.fill = some '0' then '0' else ' ') ++ t

def Style.write (s : Style) : Part → Text
  | .number digits n blanks =>
    let written := decimalDigits n
    let fill := if blanks && s.fill.isNone then some '_' else s.fill
    let missing := max digits s.width - written.length
    s.widened (match fill with
      | some '-' => written
      | some '_' => List.replicate missing ' ' ++ written
      | _ => List.replicate missing '0' ++ written)
  | .word t lowers =>
    s.widened (if s.swaps && lowers then t.map Char.toLower
      else if s.uppers || s.swaps then t.map Char.toUpper else t)

def epochSeconds (t : DateTime) : Int :=
  ((t.date.ordinal : Int) - ({ year := 1970, month := 1, day := 1 } : Date).ordinal) * 86400 +
    t.time.hour * 3600 + t.time.minute * 60 + t.time.second

def field (t : DateTime) (c : Char) : Option Part :=
  let d := t.date
  let two := paddedDigits 2
  let named := fun (names : List String) (k : Nat) => (names.getD k "").toList
  let number := fun (digits n : Nat) => some (Part.number digits n false)
  let fixed := fun (text : Text) => some (Part.word text false)
  let blankPadded := fun (n : Nat) => if n < 10 then ' ' :: decimalDigits n else decimalDigits n
  let hourOfTwelve := if t.time.hour % 12 = 0 then 12 else t.time.hour % 12
  let clock := ':' :: (two t.time.minute ++ ':' :: two t.time.second)
  let half := chars (if t.time.hour < 12 then "AM" else "PM")
  match c with
  | 'Y' => number 1 d.year
  | 'y' => number 2 (d.year % 100)
  | 'm' => number 2 d.month
  | 'd' => number 2 d.day
  | 'H' => number 2 t.time.hour
  | 'I' => number 2 hourOfTwelve
  | 'p' => some (.word half true)
  | 'M' => number 2 t.time.minute
  | 'S' => number 2 t.time.second
  | 'j' => number 3 (dayOfYear d)
  | 'a' => fixed ((named dayNames d.weekday).take 3)
  | 'A' => fixed (named dayNames d.weekday)
  | 'b' | 'h' => fixed ((named monthNames (d.month - 1)).take 3)
  | 'B' => fixed (named monthNames (d.month - 1))
  | 'w' => number 1 ((d.weekday + 1) % 7)
  | 'u' => number 1 (d.weekday + 1)
  | 'U' => number 2 ((dayOfYear d + 6 - (d.weekday + 1) % 7) / 7)
  | 'W' => number 2 ((dayOfYear d + 6 - d.weekday) / 7)
  | 'G' => number 1 (week d).1
  | 'g' => number 2 ((week d).1 % 100)
  | 'C' => number 1 (d.year / 100)
  | 'e' => some (.number 2 d.day true)
  | 'k' => some (.number 2 t.time.hour true)
  | 'l' => some (.number 2 hourOfTwelve true)
  | 'P' => some (.word (half.map Char.toLower) true)
  | 'r' => fixed (two hourOfTwelve ++ clock ++ ' ' :: half)
  | 'c' => fixed ((named dayNames d.weekday).take 3 ++ ' ' ::
      ((named monthNames (d.month - 1)).take 3 ++ ' ' :: (blankPadded d.day ++ ' ' ::
        (two t.time.hour ++ clock ++ ' ' :: decimalDigits d.year))))
  | 'V' => number 2 (week d).2
  | 's' => fixed (intText (epochSeconds t))
  | 'F' => fixed (decimalDigits d.year ++ '-' :: (two d.month ++ '-' :: two d.day))
  | 'T' | 'X' => fixed (two t.time.hour ++ clock)
  | 'x' | 'D' => fixed (two d.month ++ '/' :: (two d.day ++ '/' :: two (d.year % 100)))
  | 'R' => fixed (two t.time.hour ++ ':' :: two t.time.minute)
  | 'n' => fixed ['\n']
  | 't' => fixed ['\t']
  | '%' => fixed ['%']
  | _ => none

/-- The part that a letter right behind the percent sign stands for, if it is written as it is. -/
def plainField (t : DateTime) (c : Char) : Option Text :=
  match c with
  | 'f' => some (paddedDigits 6 t.time.micro)
  | 'z' => some (compactOffset t.time.offset)
  | 'Z' => some (match t.time.offset with
      | none => []
      | some o => chars "UTC" ++ (if o.micros = 0 then [] else TimeOfDay.offsetText o))
  | _ => none

def takeStyle (text : Text) : Style × Text :=
  let isFlag := fun (c : Char) => (chars "_-0^#").contains c
  let flags := text.takeWhile isFlag
  let behind := text.dropWhile isFlag
  let digits := behind.takeWhile Char.isDigit
  let rest := behind.dropWhile Char.isDigit
  let style : Style := {
    fill := (flags.filter fun c => c != '^' && c != '#').getLast?
    uppers := flags.contains '^', swaps := flags.contains '#'
    width := digits.foldl (fun n c => 10 * n + (c.toNat - '0'.toNat)) 0 }
  match rest with
  | 'E' :: more => ({ style with modifier := some 'E' }, more)
  | 'O' :: more => ({ style with modifier := some 'O' }, more)
  | rest => (style, rest)

/-- What stands behind a percent sign in a pattern, written for a moment, and the text behind it. -/
def directive (t : DateTime) (text : Text) : Text × Text :=
  match text with
  | [] => (['%'], [])
  | first :: _ =>
    match plainField t first with
    | some part => (part, text.tail)
    | none =>
      let (style, rest) := takeStyle text
      match rest with
      | [] => (style.widened ('%' :: text), [])
      | 'Z' :: more => (style.widened [], more)
      | 'z' :: more => ([], more)
      | c :: more =>
        let isAllowed := style.modifier.all fun m => modified m c
        match isAllowed, field t c with
        | true, some part => (style.write part, more)
        | _, _ => (style.widened ('%' :: text.take (text.length - more.length)), more)

def formatIn (t : DateTime) : Nat → Text → Text
  | 0, _ => []
  | _ + 1, [] => []
  | fuel + 1, '%' :: text =>
    let (part, rest) := directive t text
    part ++ formatIn t fuel rest
  | fuel + 1, c :: rest => c :: formatIn t fuel rest

end CalendarText

def DateTime.format (t : DateTime) (pattern : Text) : Text :=
  CalendarText.formatIn t (pattern.length + 1) pattern

end MacroExpand
