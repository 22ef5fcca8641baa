import MacroExpand.Value.CalendarText
import MacroExpand.Text.Case
import MacroExpand.Number.Reading

/-!
# Moments read by a pattern

A letter behind a percent sign stands for a part of a moment, which may be written in several ways;
blanks stand for any blanks.  The ways are tried in a fixed order until the whole pattern fits the
front of a text.
-/

set_option autoImplicit false

namespace MacroExpand

namespace CalendarReading

inductive Item where
  | blanks
  | letter (c : Char)
  | field (c : Char)
  deriving DecidableEq, Repr, Inhabited

def within (low high : Char) (c : Char) : Bool := low ≤ c && c ≤ high

def digit : Char → Bool := within '0' '9'

def rows (ways : List (List (Char → Bool))) (t : Text) : List Nat :=
  ways.filterMap fun way =>
    if way.length ≤ t.length && (way.zip t).all fun (p, c) => p c then some way.length else none

def named (names : List String) (t : Text) : List Nat :=
  let sorted := names.mergeSort fun a b => b.length ≤ a.length
  sorted.filterMap fun n =>
    if (chars n).lower.isPrefixOf t.lower then some n.length else none

def short (names : List String) : List String := names.map fun n => String.ofList (n.toList.take 3)

/-- The lengths of an offset at the front of a text: hours, minutes, and perhaps seconds with a
fraction. -/
def offsets (t : Text) : List Nat :=
  let pair := fun (k : Nat) =>
    let rest := t.drop k
    (if rest.head? = some ':' && !(rows [[within '0' '5', digit]] (rest.drop 1)).isEmpty
      then [k + 3] else []) ++
    (if (rows [[within '0' '5', digit]] rest).isEmpty then [] else [k + 2])
  let fraction := fun (k : Nat) =>
    let rest := t.drop k
    if rest.head? = some '.' then
      let size := min 6 ((rest.drop 1).takeWhile digit).length
      (List.range size).reverse.map fun n => k + 2 + n
    else []
  let isSign := fun (c : Char) => c == '+' || c == '-'
  let clock := if (rows [[isSign, digit, digit]] t).isEmpty then []
    else (pair 3).flatMap fun k => (pair k).flatMap (fun n => fraction n ++ [n]) ++ [k]
  clock ++ (if t.head? = some 'Z' then [1] else [])

def lengths (c : Char) (t : Text) : List Nat :=
  let is := fun (d : Char) => within d d
  let upTo := within
  match c with
  | 'd' => rows [[is '3', upTo '0' '1'], [upTo '1' '2', digit], [is '0', upTo '1' '9'], [upTo '1' '9'],
      [is ' ', upTo '1' '9']] t
  | 'f' => (List.range (min 6 (t.takeWhile digit).length)).reverse.map (· + 1)
  | 'H' => rows [[is '2', upTo '0' '3'], [upTo '0' '1', digit], [digit]] t
  | 'I' | 'm' => rows [[is '1', upTo '0' '2'], [is '0', upTo '1' '9'], [upTo '1' '9']] t
  | 'Y' | 'G' => rows [[digit, digit, digit, digit]] t
  | 'y' => rows [[digit, digit]] t
  | 'j' => rows [[is '3', is '6', upTo '0' '6'], [is '3', upTo '0' '5', digit], [upTo '1' '2', digit, digit],
      [is '0', upTo '1' '9', digit], [is '0', is '0', upTo '1' '9'], [upTo '1' '9', digit],
      [is '0', upTo '1' '9'], [upTo '1' '9']] t
  | 'M' => rows [[upTo '0' '5', digit], [digit]] t
  | 'S' => rows [[is '6', upTo '0' '1'], [upTo '0' '5', digit], [digit]] t
  | 'U' | 'W' => rows [[is '5', upTo '0' '3'], [upTo '0' '4', digit], [digit]] t
  | 'V' => rows [[is '5', upTo '0' '3'], [is '0', upTo '1' '9'], [upTo '1' '4', digit], [digit]] t
  | 'w' => rows [[upTo '0' '6']] t
  | 'u' => rows [[upTo '1' '7']] t
  | 'A' => named CalendarText.dayNames t
  | 'a' => named (short CalendarText.dayNames) t
  | 'B' => named CalendarText.monthNames t
  | 'b' => named (short CalendarText.monthNames) t
  | 'p' => named ["AM", "PM"] t
  | 'Z' => named ["UTC", "GMT"] t
  | 'z' => offsets t
  | _ => []

def shorthand : Char → Option String
  | 'c' => some "%a %b %d %H:%M:%S %Y"
  | 'x' => some "%m/%d/%y"
  | 'X' => some "%H:%M:%S"
  | _ => none

def fieldLetters : List Char := chars "dfHIYGymjMSUWVwuAaBbpZz"

def items : Nat → Text → Except (Option Char) (List Item)
  | 0, _ => .ok []
  | _ + 1, [] => .ok []
  | fuel + 1, '%' :: rest =>
    match rest with
    | [] => .error none
    | c :: more =>
      if isBlank c then .error (some '%')
      else if c = '%' then do return .letter '%' :: (← items fuel more)
      else
        match shorthand c with
        | some p => items fuel (chars p ++ more)
        | none =>
          if fieldLetters.contains c then do return .field c :: (← items fuel more)
          else .error (some c)
  | fuel + 1, c :: rest =>
    if isBlank c then do return .blanks :: (← items fuel (rest.dropWhile isBlank))
    else do return .letter c :: (← items fuel rest)

def fit : List Item → Text → Option (List (Char × Text) × Text)
  | [], t => some ([], t)
  | .letter c :: more, t =>
    match t with
    | x :: rest => if Text.lower [x] = Text.lower [c] then fit more rest else none
    | [] => none
  | .blanks :: more, t =>
    (List.range (t.takeWhile isBlank).length).reverse.findSome? fun k => fit more (t.drop (k + 1))
  | .field c :: more, t =>
    (lengths c t).findSome? fun k =>
      (fit more (t.drop k)).map fun (found, rest) => ((c, t.take k) :: found, rest)

/-- What a text says about a moment. -/
structure Found where
  parts : List (Char × Text)

namespace Found

def get? (f : Found) (c : Char) : Option Text := (f.parts.find? fun p => p.1 == c).map Prod.snd

def number? (f : Found) (c : Char) : Option Nat :=
  (f.get? c).map fun t => Number.digitsValue (t.filter digit)

def place? (f : Found) (c : Char) (names : List String) : Option Nat :=
  (f.get? c).map fun t => names.findIdx fun n => (chars n).lower == t.lower

def year? (f : Found) : Option Nat :=
  (f.number? 'Y').or ((f.number? 'y').map fun y => if y ≤ 68 then y + 2000 else y + 1900)

def month (f : Found) : Nat :=
  let named := (f.place? 'B' CalendarText.monthNames).or (f.place? 'b' (short CalendarText.monthNames))
  ((f.number? 'm').or (named.map (· + 1))).getD 1

def weekday? (f : Found) : Option Nat :=
  (f.place? 'A' CalendarText.dayNames).or (f.place? 'a' (short CalendarText.dayNames))
    |>.or ((f.number? 'w').map fun n => (n + 6) % 7)
    |>.or ((f.number? 'u').map (· - 1))

def hour (f : Found) : Nat :=
  match f.number? 'H', f.number? 'I' with
  | none, some n =>
    if (f.get? 'p').map Text.lower = some (chars "pm") then (if n = 12 then 12 else n + 12)
    else if n = 12 then 0 else n
  | some n, _ => n
  | none, none => 0

def offset? (f : Found) : Except String (Option Int) :=
  match f.get? 'z' with
  | none => .ok none
  | some ['Z'] => .ok (some 0)
  | some z =>
    let colons := z.getD 3 ' ' = ':'
    let body := if colons then z.take 3 ++ z.drop 4 else z
    if colons && 5 < body.length && body.getD 5 ' ' ≠ ':' then
      .error ("Inconsistent use of : in " ++ String.ofList z)
    else
      let body := if colons then body.take 5 ++ body.drop 6 else body
      let number := fun (k : Nat) => Number.digitsValue ((body.drop k).take 2)
      let fraction := body.drop 8
      let micros := Number.digitsValue (fraction ++ List.replicate (6 - fraction.length) '0')
      let total : Int := ((number 1 * 3600 + number 3 * 60 + number 5) * 1000000 + micros : Nat)
      .ok (some (if z.head? = some '-' then -total else total))

def dayInWeek (year week weekday : Nat) (fromMonday : Bool) : Int :=
  let first := Date.weekday ⟨year, 1, 1⟩
  let (first, weekday) : Nat × Nat :=
    if fromMonday then (first, weekday) else ((first + 1) % 7, (weekday + 1) % 7)
  if week = 0 then 1 + (weekday : Int) - first
  else 1 + ((7 - first) % 7 : Nat) + 7 * ((week : Int) - 1) + weekday

def dayByWeek? (f : Found) (year : Nat) : Option (Nat × Int) := do
  let weekday ← f.weekday?
  match f.number? 'U', f.number? 'W', f.number? 'G', f.number? 'V' with
  | some w, _, _, _ => some (year, dayInWeek year w weekday false)
  | none, some w, _, _ => some (year, dayInWeek year w weekday true)
  | none, none, some y, some w =>
    let correction := Date.weekday ⟨y, 1, 4⟩ + 4
    some (y, (w : Int) * 7 + (weekday + 1 : Nat) - correction)
  | _, _, _, _ => none

/-- Why the parts do not give a day, if parts about weeks are missing or contradict others. -/
def conflict? (f : Found) : Option String :=
  let whole := "and a weekday directive ('%A', '%a', '%w', or '%u')."
  match f.number? 'G', f.number? 'V' with
  | some _, week =>
    if (f.get? 'j').isSome then
      some ("Day of the year directive '%j' is not compatible with ISO year directive '%G'. " ++
        "Use '%Y' instead.")
    else if week.isNone || f.weekday?.isNone then
      some ("ISO year directive '%G' must be used with the ISO week directive '%V' " ++ whole)
    else none
  | none, some _ =>
    if f.year?.isNone || f.weekday?.isNone then
      some ("ISO week directive '%V' must be used with the ISO year directive '%G' " ++ whole)
    else
      some ("ISO week directive '%V' is incompatible with the year directive '%Y'. Use the ISO " ++
        "year '%G' instead.")
  | none, none => none

def date (f : Found) : Except String Date := do
  if let some why := f.conflict? then throw why
  let month := f.month
  let day := (f.number? 'd').getD 1
  let isLeapDay := f.year?.isNone && month = 2 && day = 29
  let year := f.year?.getD (if isLeapDay then 1904 else 1900)
  let byNumber := (f.number? 'j').map fun (n : Nat) => (year, (n : Int))
  let found ← match byNumber.or (f.dayByWeek? year) with
    | some (y, n) =>
      let total := (Date.ordinal ⟨y, 1, 1⟩ : Int) + n - 1
      if y < 1 then throw ("year " ++ toString y ++ " is out of range")
      if total < 1 then throw "ordinal must be >= 1"
      pure (Date.ofOrdinal total.toNat)
    | none => pure ⟨year, month, day⟩
  if let some why := found.check then throw why
  return if isLeapDay then { found with year := 1900 } else found

end Found

end CalendarReading

def DateTime.read (text pattern : Text) : Except String (DateTime × Option Int) := do
  let items ← match CalendarReading.items (8 * pattern.length + 24) pattern with
    | .ok items => pure items
    | .error (some c) =>
      throw ("'" ++ String.ofList [c] ++ "' is a bad directive in format '" ++
        String.ofList pattern ++ "'")
    | .error none => throw ("stray % in format '" ++ String.ofList pattern ++ "'")
  match CalendarReading.fit items text with
  | none =>
    throw ("time data " ++ String.ofList (Text.quoted text) ++ " does not match format " ++
      String.ofList (Text.quoted pattern))
  | some (parts, rest) =>
    if !rest.isEmpty then throw ("unconverted data remains: " ++ String.ofList rest)
    let f : CalendarReading.Found := ⟨parts⟩
    let offset ← f.offset?
    let date ← f.date
    let fraction := (f.get? 'f').getD []
    let micro := Number.digitsValue (fraction ++ List.replicate (6 - fraction.length) '0')
    return (⟨date, ⟨f.hour, (f.number? 'M').getD 0, (f.number? 'S').getD 0, micro, none⟩⟩, offset)

end MacroExpand
