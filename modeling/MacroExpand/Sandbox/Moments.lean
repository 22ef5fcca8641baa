import MacroExpand.Sandbox.Construct
import MacroExpand.Value.CalendarReading

/-!
# Dates, times and spans of time
-/

set_option autoImplicit false

namespace MacroExpand

namespace Sandbox

def clock : DateTime := ⟨⟨2025, 1, 1⟩, ⟨0, 0, 0, 0, some ⟨0⟩⟩⟩

/-! ## Arguments -/

def needPart (r : Interpreter) (v : Value) : Eval Int := do
  let n ← needWhole r v
  if 2 ^ 63 ≤ n ∨ n < -2 ^ 63 then raise "OverflowError" "Python int too large to convert to C long"
  if 2 ^ 31 ≤ n then raise "OverflowError" "signed integer is greater than maximum"
  if n < -2 ^ 31 then raise "OverflowError" "signed integer is less than minimum"
  return n

def partOf (r : Interpreter) (a : Arguments) (place : Nat) (name : String) (standard : Int) :
    Eval Int := do
  match a.get? place name with
  | some v => needPart r v
  | none => return standard

def zoneOf (v : Option Value) : Eval (Option Duration) := do
  match v with
  | none | some (.scalar .nil) => return none
  | some v =>
    match (← core? v) with
    | some (.timezone offset _) => return some offset
    | _ =>
      typeError ("tzinfo argument must be None or of a tzinfo subclass, not type '" ++
        (← typeName v) ++ "'")

def zoneValue : Option Duration → Eval Value
  | none => return nil
  | some o => if o.micros = 0 then return .ref utcCell else alloc (.timezone o none)

def checkOffset (d : Duration) : Eval Duration := do
  if 86400000000 ≤ d.micros.natAbs then
    valueError ("offset must be a timedelta strictly between -timedelta(hours=24) and " ++
      "timedelta(hours=24), not " ++ String.ofList (durationCode d) ++ ".")
  return d

def checked {α : Type} (a : α) : Option String → Eval α
  | none => return a
  | some why => valueError why

def orValueError {α : Type} : Except String α → Eval α
  | .ok a => return a
  | .error why => valueError why

def dayOf (year month day : Int) : Eval Date := do
  if year < 1 ∨ 9999 < year then valueError ("year " ++ toString year ++ " is out of range")
  let d : Date := ⟨year.toNat, month.toNat, day.toNat⟩
  checked d d.check

def clockPart (n : Int) : Nat := if n < 0 then 1000000 else n.toNat

def timeOf (hour minute second micro : Int) (offset : Option Duration) : Eval TimeOfDay := do
  let t : TimeOfDay := ⟨clockPart hour, clockPart minute, clockPart second, clockPart micro, offset⟩
  checked t t.check

def newDate (d : Date) : Eval Value := newKnown "date" (.date d)
def newTime (t : TimeOfDay) : Eval Value := newKnown "time" (.time t)
def newDateTime (t : DateTime) : Eval Value := newKnown "datetime" (.datetime t)

def dateNames : List String := ["year", "month", "day"]

def timeNames : List String := ["hour", "minute", "second", "microsecond", "tzinfo", "fold"]

def dateFrom (r : Interpreter) (a : Arguments) (d : Date) : Eval Date := do
  let year ← partOf r a 0 "year" d.year
  let month ← partOf r a 1 "month" d.month
  dayOf year month (← partOf r a 2 "day" d.day)

def timeFrom (r : Interpreter) (a : Arguments) (place : Nat) (t : TimeOfDay) : Eval TimeOfDay := do
  let hour ← partOf r a place "hour" t.hour
  let minute ← partOf r a (place + 1) "minute" t.minute
  let second ← partOf r a (place + 2) "second" t.second
  let micro ← partOf r a (place + 3) "microsecond" t.micro
  let offset ← match a.get? (place + 4) "tzinfo" with
    | some z => zoneOf (some z)
    | none => pure t.offset
  let made ← timeOf hour minute second micro offset
  let fold ← partOf r a (place + 5) "fold" 0
  if fold ≠ 0 ∧ fold ≠ 1 then valueError "fold must be either 0 or 1"
  return made

def midnight : TimeOfDay := ⟨0, 0, 0, 0, none⟩

/-! ## Making -/

def durationParts : List (String × Int) := [
  ("days", 86400000000), ("seconds", 1000000), ("microseconds", 1), ("milliseconds", 1000),
  ("minutes", 60000000), ("hours", 3600000000), ("weeks", 604800000000)]

def sumParts (a : Arguments) (place : Nat) (total : Quotient) :
    List (String × Int) → Eval Quotient
  | [] => return total
  | (name, length) :: rest => do
      match a.get? place name with
      | none => sumParts a (place + 1) total rest
      | some v =>
        let q ← match (← unwrap v) with
          | .scalar (.float d) => ratioOf d
          | w =>
            match index? w with
            | some n => pure ⟨n, 1⟩
            | none =>
              typeError ("unsupported type for timedelta " ++ name ++ " component: " ++
                (← typeName v))
        let next := Quotient.normal (total.num * q.den + q.num * length * total.den)
          ((total.den : Int) * q.den)
        sumParts a (place + 1) next rest

def momentMakers : List (String × Maker) := [
  ("date", fun r a => do
    Parameters.check { names := dateNames, required := 3 } "function" a
    newDate (← dateFrom r a default)),
  ("datetime", fun r a => do
    Parameters.check { names := dateNames ++ timeNames, required := 3, places := 8 } "function" a
    let d ← dateFrom r a default
    newDateTime ⟨d, ← timeFrom r a 3 midnight⟩),
  ("time", fun r a => do
    Parameters.check { names := timeNames, places := 5 } "function" a
    newTime (← timeFrom r a 0 midnight)),
  ("timedelta", fun _ a => do
    Parameters.check { names := durationParts.map Prod.fst } "__new__()" a
    let q ← sumParts a 0 ⟨0, 1⟩ durationParts
    newDuration (roundQuotient q.num q.den)),
  ("timezone", fun _ a => do
    Parameters.check { names := ["offset", "name"], required := 1 } "timezone()" a
    let v := (a.get? 0 "offset").getD nil
    match (← state? v) with
    | some (.timedelta d) =>
      let name ← match a.get? 1 "name" with
        | some n => do pure (some (← needText "timezone() argument 2" n))
        | none => pure none
      let d ← checkOffset d
      match name with
      | some name => alloc (.timezone d (some name))
      | none => zoneValue (some d)
    | _ => badArgument "timezone() argument 1" "datetime.timedelta" v),
  ("tzinfo", fun _ _ => alloc (.object (classCell "tzinfo") [] none))]

/-! ## Parts -/

def momentPart? (s : State) (name : String) : Option (Eval Value) :=
  let number := fun (n : Nat) => some (pure (ofNat n) : Eval Value)
  let timePart := fun (t : TimeOfDay) => match name with
    | "hour" => number t.hour
    | "minute" => number t.minute
    | "second" => number t.second
    | "microsecond" => number t.micro
    | "tzinfo" => some (zoneValue t.offset)
    | "fold" => number 0
    | _ => none
  let datePart := fun (d : Date) => match name with
    | "year" => number d.year
    | "month" => number d.month
    | "day" => number d.day
    | _ => none
  match s with
  | .date d => datePart d
  | .datetime t => (datePart t.date).or (timePart t.time)
  | .time t => timePart t
  | .timedelta d => match name with
      | "days" => some (pure (ofInt d.days))
      | "seconds" => some (pure (ofInt d.seconds))
      | "microseconds" => some (pure (ofInt d.microseconds))
      | _ => none
  | _ => none

/-! ## Methods -/

def selfMoment (v : Value) : Eval DateTime := do
  match (← state? v) with
  | some s => return (momentOf s).getD clock
  | none => return clock

def clockText (t : TimeOfDay) (spec : Text) : Eval Text := do
  let two := paddedDigits 2
  let hm := two t.hour ++ ':' :: two t.minute
  let hms := hm ++ ':' :: two t.second
  let body ← match String.ofList spec with
    | "auto" => pure ({ t with offset := none }.text)
    | "hours" => pure (two t.hour)
    | "minutes" => pure hm
    | "seconds" => pure hms
    | "milliseconds" => pure (hms ++ '.' :: paddedDigits 3 (t.micro / 1000))
    | "microseconds" => pure (hms ++ '.' :: paddedDigits 6 t.micro)
    | _ => valueError "Unknown timespec value"
  return body ++ (t.offset.map TimeOfDay.offsetText).getD []

def timespecOf (a : Arguments) (place : Nat) : Eval Text := do
  match a.get? place "timespec" with
  | some v => needText ("isoformat() argument " ++ toString (place + 1)) v
  | none => return chars "auto"

def patternMethod : Native :=
  .named "strftime" { names := ["format"], required := 1 } fun _ v a => do
    let pattern ← needText "strftime() argument 1" ((a.get? 0 "format").getD nil)
    return ofText ((← selfMoment v).format pattern)

def newWeekDate (d : Date) : Eval Value := do
  let (year, week) := CalendarText.week d
  let parts := [("year", ofNat year), ("week", ofNat week), ("weekday", ofNat (d.weekday + 1))]
  alloc (.object (classCell "IsoCalendarDate") parts (some (← newTuple (parts.map Prod.snd))))

def dateMethods : List Native := [
  patternMethod,
  .plain "isoformat" fun _ v => do return ofText (← selfMoment v).date.text,
  .plain "weekday" fun _ v => do return ofNat (← selfMoment v).date.weekday,
  .plain "isoweekday" fun _ v => do return ofNat ((← selfMoment v).date.weekday + 1),
  .plain "toordinal" fun _ v => do return ofNat (← selfMoment v).date.ordinal,
  .plain "isocalendar" fun _ v => do newWeekDate (← selfMoment v).date,
  .plain "ctime" fun _ v => do return ofText ((← selfMoment v).format (chars "%c")),
  .named "replace" { names := dateNames } fun r v a => do
    newDate (← dateFrom r a (← selfMoment v).date)]

def offsetMethods : List Native := [
  .plain "utcoffset" fun _ v => do
    match (← selfMoment v).time.offset with
    | some o => newDuration o.micros
    | none => return nil,
  .plain "tzname" fun _ v => do
    match (← selfMoment v).time.offset with
    | some o => return ofText (offsetName o)
    | none => return nil,
  .plain "dst" fun _ _ => return nil]

def timeMethods : List Native := offsetMethods ++ [
  patternMethod,
  .named "isoformat" { names := ["timespec"] } fun _ v a => do
    return ofText (← clockText (← selfMoment v).time (← timespecOf a 0)),
  .named "replace" { names := timeNames, places := 5 } fun r v a => do
    newTime (← timeFrom r a 0 (← selfMoment v).time)]

def epochMicros : Int := DateTime.micros ⟨⟨1970, 1, 1⟩, midnight⟩

def inZone (t : DateTime) (offset : Duration) : Eval DateTime := do
  let base : DateTime := ⟨t.date, { t.time with offset := some offset }⟩
  shifted base (offset.micros - (t.time.offset.map (·.micros)).getD 0)

def datetimeMethods : List Native := offsetMethods ++ [
  .named "isoformat" { names := ["sep", "timespec"] } fun _ v a => do
    let t ← selfMoment v
    let between ← match a.get? 0 "sep" with
      | some s =>
        match (← text? s) with
        | some [c] => pure [c]
        | _ => badArgument "isoformat() argument 1" "a unicode character" s
      | none => pure ['T']
    return ofText (t.date.text ++ between ++ (← clockText t.time (← timespecOf a 1))),
  .plain "date" fun _ v => do newDate (← selfMoment v).date,
  .plain "time" fun _ v => do newTime { (← selfMoment v).time with offset := none },
  .plain "timetz" fun _ v => do newTime (← selfMoment v).time,
  .plain "timestamp" fun _ v => do
    let t ← selfMoment v
    return .scalar (← orFault (Arithmetic.trueDiv (t.universalMicros - epochMicros) 1000000)),
  .named "astimezone" { names := ["tz"] } fun _ v a => do
    newDateTime (← inZone (← selfMoment v) ((← zoneOf (a.get? 0 "tz")).getD ⟨0⟩)),
  .named "replace" { names := dateNames ++ timeNames, places := 8 } fun r v a => do
    let t ← selfMoment v
    let d ← dateFrom r a t.date
    newDateTime ⟨d, ← timeFrom r a 3 t.time⟩]

def timedeltaMethods : List Native := [
  .plain "total_seconds" fun _ v => do
    match (← state? v) with
    | some (.timedelta d) => return .scalar (← orFault (Arithmetic.trueDiv d.micros 1000000))
    | _ => return nil]

def zoneMethod (name : String) (run : Duration → Option Text → Eval Value) : Native :=
  .single name fun _ v t => do
    if t ≠ nil && !(← isKnown t "datetime") then
      typeError (name ++ "(dt) argument must be a datetime instance or None, not " ++
        (← typeName t))
    match (← core? v) with
    | some (.timezone o n) => run o n
    | _ => return nil

def timezoneMethods : List Native := [
  zoneMethod "utcoffset" fun o _ => newDuration o.micros,
  zoneMethod "tzname" fun o n => return ofText (n.getD (offsetName o)),
  zoneMethod "dst" fun _ _ => return nil,
  .single "fromutc" fun _ v t => do
    match (← core? v), (← state? t) with
    | some (.timezone o _), some (.datetime m) =>
      if m.time.offset ≠ some o then valueError "fromutc: dt.tzinfo is not self"
      newDateTime (← shifted m o.micros)
    | _, _ => typeError "fromutc: argument must be a datetime"]

/-! ## Functions of the classes -/

def readingFunction {α : Type} (read : Text → Except String α) (make : α → Eval Value) : Native :=
  .single "fromisoformat" fun _ _ v => do
    match (← text? v) with
    | some t => make (← orValueError (read t))
    | none => typeError "fromisoformat: argument must be str"

def atSeconds (r : Interpreter) (v : Value) (offset : Option Duration) : Eval DateTime := do
  let q ← match (← unwrap v) with
    | .scalar (.float d) =>
      match d.kind with
      | .undefined => valueError "Invalid value NaN (not a number)"
      | .infinite => raise "OverflowError" "cannot convert float infinity to integer"
      | .finite _ _ => ratioOf d
    | _ => do pure ⟨← needWhole r v, 1⟩
  let micros := roundQuotient (q.num * 1000000) q.den
  if 2 ^ 63 ≤ (micros / 1000000).natAbs then
    raise "OverflowError" "timestamp out of range for platform time_t"
  let base : DateTime := ⟨⟨1970, 1, 1⟩, { midnight with offset }⟩
  let there := micros + (offset.map (·.micros)).getD 0
  match base.add ⟨there⟩ with
  | some t => return t
  | none =>
    let year : Int := 1970 + there / 31556952000000
    valueError ("year " ++ toString year ++ " is out of range")

def dayNumbered (r : Interpreter) (v : Value) : Eval Date := do
  let n ← needPart r v
  if n < 1 then valueError "ordinal must be >= 1"
  let d := Date.ofOrdinal n.toNat
  checked d d.check

def dayOfWeek (r : Interpreter) (a : Arguments) : Eval Date := do
  let year ← partOf r a 0 "year" 0
  let week ← partOf r a 1 "week" 0
  let day ← partOf r a 2 "day" 0
  if year < 1 ∨ 9999 < year then valueError ("Year is out of range: " ++ toString year)
  if day < 1 ∨ 7 < day then
    if (Calendar.weekDate year.toNat week.toNat 1).isSome then
      valueError ("Invalid day: " ++ toString day ++ " (range is [1, 7])")
  match Calendar.weekDate year.toNat week.toNat day.toNat with
  | some d => checked d d.check
  | none => valueError ("Invalid week: " ++ toString week)

def dayFunctions (make : Date → Eval Value) : List Native := [
  .single "fromordinal" fun r _ v => do make (← dayNumbered r v),
  .named "fromisocalendar" { names := ["year", "week", "day"], required := 3 } fun r _ a => do
    make (← dayOfWeek r a)]

def dateFunctions : List Native := dayFunctions newDate ++ [
  readingFunction Date.ofIso newDate,
  .plain "today" fun _ _ => newDate clock.date,
  .single "fromtimestamp" fun r _ v => do newDate (← atSeconds r v none).date]

def datetimeFunctions : List Native := dayFunctions (fun d => newDateTime ⟨d, midnight⟩) ++ [
  readingFunction DateTime.ofIso newDateTime,
  .named "now" { names := ["tz"] } fun _ _ a => do
    match (← zoneOf (a.get? 0 "tz")) with
    | some o => newDateTime (← inZone clock o)
    | none => newDateTime ⟨clock.date, { clock.time with offset := none }⟩,
  .plain "utcnow" fun _ _ => newDateTime ⟨clock.date, { clock.time with offset := none }⟩,
  .plain "today" fun _ _ => newDateTime ⟨clock.date, { clock.time with offset := none }⟩,
  .named "combine" { names := ["date", "time", "tzinfo"], required := 2 } fun _ _ a => do
    let first := (a.get? 0 "date").getD nil
    let second := (a.get? 1 "time").getD nil
    if !(← isKnown first "date") then badArgument "combine() argument 1" "datetime.date" first
    if !(← isKnown second "time") then badArgument "combine() argument 2" "datetime.time" second
    let t := (← selfMoment second).time
    let offset ← match a.get? 2 "tzinfo" with
      | some z => zoneOf (some z)
      | none => pure t.offset
    newDateTime ⟨(← selfMoment first).date, { t with offset }⟩,
  .named "fromtimestamp" { names := ["timestamp", "tz"], required := 1 } fun r _ a => do
    let offset ← zoneOf (a.get? 1 "tz")
    newDateTime (← atSeconds r ((a.get? 0 "timestamp").getD nil) offset),
  .single "utcfromtimestamp" fun r _ v => do newDateTime (← atSeconds r v none),
  .counted "strptime" 2 2 fun _ _ a => do
    let text ← needText "strptime() argument 1" a.at0
    let pattern ← needText "strptime() argument 2" a.at1
    let (t, offset) ← orValueError (DateTime.read text pattern)
    let offset ← match offset with
      | some n => do pure (some (← checkOffset ⟨n⟩))
      | none => pure none
    let made : DateTime := ⟨t.date, { t.time with offset }⟩
    newDateTime (← checked made made.check)]

def timeFunctions : List Native := [readingFunction TimeOfDay.ofIso newTime]

def momentConstant? (cls name : String) : Option (Eval Value) :=
  let last : TimeOfDay := ⟨23, 59, 59, 999999, none⟩
  let day := 86400000000
  match cls, name with
  | "timezone", "utc" => some (pure (.ref utcCell))
  | "timezone", "min" => some (alloc (.timezone ⟨60000000 - day⟩ none))
  | "timezone", "max" => some (alloc (.timezone ⟨day - 60000000⟩ none))
  | "datetime", "min" => some (newDateTime ⟨⟨1, 1, 1⟩, midnight⟩)
  | "datetime", "max" => some (newDateTime ⟨⟨9999, 12, 31⟩, last⟩)
  | "datetime", "resolution" | "time", "resolution" | "timedelta", "resolution" =>
    some (newDuration 1)
  | "date", "min" => some (newDate ⟨1, 1, 1⟩)
  | "date", "max" => some (newDate ⟨9999, 12, 31⟩)
  | "date", "resolution" => some (newDuration day)
  | "time", "min" => some (newTime midnight)
  | "time", "max" => some (newTime last)
  | "timedelta", "min" => some (newDuration (-999999999 * day))
  | "timedelta", "max" => some (newDuration (1000000000 * day - 1))
  | _, _ => none

end Sandbox

end MacroExpand
