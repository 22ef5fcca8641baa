import MacroExpand.Value.Calendar
import MacroExpand.Value.Uuid
import MacroExpand.Text.Search

/-!
# TOML documents

A document is a table of tables, arrays and plain values.  Reading goes statement by statement; a
table may be declared once, and a table or an array that is written in one piece cannot be added to.
Errors say what is wrong and where.
-/

set_option autoImplicit false

namespace MacroExpand

inductive Toml where
  | str (s : Text)
  | int (n : Int)
  | float (d : Double)
  | bool (b : Bool)
  | datetime (t : DateTime)
  | date (d : Date)
  | time (t : TimeOfDay)
  | arr (items : List Toml)
  | table (members : List (Text × Toml))
  deriving Repr, Inhabited

abbrev TomlKey := List Text

/-- Why a text is no TOML document. -/
inductive TomlFault where
  | statement
  | statementEnd
  | declaredTwice (key : TomlKey)
  | immutable (key : TomlKey)
  | redefined (key : TomlKey)
  | overwritten
  | tableEnd
  | arrayTableEnd
  | equals
  | keyStart
  | unclosedArray
  | unclosedTable
  | duplicateKey (name : Text)
  | backslash
  | hex
  | scalarValue
  | unterminated
  | illegal (c : Char)
  | invalidChar (c : Char)
  | expected (mark : Text)
  | dateRange
  | value
  deriving DecidableEq, Repr, Inhabited

namespace TomlFault

def keyText (key : TomlKey) : String :=
  let parts := key.map fun part => String.ofList (Text.quoted part)
  match parts with
  | [one] => "(" ++ one ++ ",)"
  | parts => "(" ++ ", ".intercalate parts ++ ")"

def message : TomlFault → String
  | .statement => "Invalid statement"
  | .statementEnd => "Expected newline or end of document after a statement"
  | .declaredTwice key => "Cannot declare " ++ keyText key ++ " twice"
  | .immutable key => "Cannot mutate immutable namespace " ++ keyText key
  | .redefined key => "Cannot redefine namespace " ++ keyText key
  | .overwritten => "Cannot overwrite a value"
  | .tableEnd => "Expected ']' at the end of a table declaration"
  | .arrayTableEnd => "Expected ']]' at the end of an array declaration"
  | .equals => "Expected '=' after a key in a key/value pair"
  | .keyStart => "Invalid initial character for a key part"
  | .unclosedArray => "Unclosed array"
  | .unclosedTable => "Unclosed inline table"
  | .duplicateKey name => "Duplicate inline table key " ++ String.ofList (Text.quoted name)
  | .backslash => "Unescaped '\\' in a string"
  | .hex => "Invalid hex value"
  | .scalarValue => "Escaped character is not a Unicode scalar value"
  | .unterminated => "Unterminated string"
  | .illegal c => "Illegal character " ++ String.ofList (Text.quoted [c])
  | .invalidChar c => "Found invalid character " ++ String.ofList (Text.quoted [c])
  | .expected mark => "Expected " ++ String.ofList (Text.quoted mark)
  | .dateRange => "Invalid date or datetime"
  | .value => "Invalid value"

end TomlFault

/-- A fault, with the number of characters from there to the end of the text. -/
structure TomlError where
  fault : TomlFault
  left : Nat
  deriving DecidableEq, Repr, Inhabited

def TomlError.message (text : Text) (e : TomlError) : String :=
  let position := text.length - e.left
  let before := text.take position
  let place := if e.left = 0 then "end of document"
    else "line " ++ toString (before.count '\n' + 1) ++ ", column " ++
      toString ((before.reverse.takeWhile (· != '\n')).length + 1)
  e.fault.message ++ " (at " ++ place ++ ")"

namespace Toml

def fail {α : Type} (fault : TomlFault) (rest : Text) : Except TomlError α :=
  .error ⟨fault, rest.length⟩

def isSpace (c : Char) : Bool := c == ' ' || c == '\t'

def isSpaceOrFeed (c : Char) : Bool := isSpace c || c == '\n'

def isControl (c : Char) : Bool := (c.toNat < 32 && c != '\t') || c.toNat == 127

def skip (text : Text) : Text := text.dropWhile isSpace

def refuseControl (feeds : Bool) : Text → Text → Except TomlError Unit
  | [], _ => .ok ()
  | c :: part, text =>
    if isControl c && !(feeds && c == '\n') then fail (.invalidChar c) text
    else refuseControl feeds part text.tail

def skipComment (text : Text) : Except TomlError Text :=
  match text with
  | '#' :: rest => do
      let part := rest.takeWhile (· != '\n')
      refuseControl false part rest
      return rest.drop part.length
  | text => .ok text

def skipAll : Nat → Text → Except TomlError Text
  | 0, text => .ok text
  | fuel + 1, text => do
      let rest ← skipComment (text.dropWhile isSpaceOrFeed)
      if rest.length = text.length then return rest else skipAll fuel rest

/-! ## Strings -/

def literal (mark : Text) (feeds : Bool) (text : Text) : Except TomlError (Text × Text) :=
  match Search.first mark text with
  | none => .error ⟨.expected mark, 0⟩
  | some k => do
      refuseControl feeds (text.take k) text
      return (text.take k, text.drop (k + mark.length))

def hexChar (count : Nat) (text : Text) : Except TomlError (Char × Text) :=
  match (if (text.take count).length = count then hexNumber (text.take count) else none) with
  | none => fail .hex text
  | some n =>
    let rest := text.drop count
    if n < 0xD800 ∨ (0xDFFF < n ∧ n ≤ 0x10FFFF) then .ok (Char.ofNat n, rest)
    else fail .scalarValue rest

def escaped : Char → Option Char
  | 'b' => some '\x08'
  | 't' => some '\t'
  | 'n' => some '\n'
  | 'f' => some '\x0c'
  | 'r' => some '\r'
  | '"' => some '"'
  | '\\' => some '\\'
  | _ => none

def escape (feeds : Bool) (text : Text) : Except TomlError (Text × Text) :=
  match text with
  | [] => fail .backslash []
  | 'u' :: rest => (hexChar 4 rest).map fun (c, rest) => ([c], rest)
  | 'U' :: rest => (hexChar 8 rest).map fun (c, rest) => ([c], rest)
  | c :: rest =>
    if feeds && isSpaceOrFeed c then
      if c == '\n' then .ok ([], rest.dropWhile isSpaceOrFeed)
      else
        match skip rest with
        | [] => .ok ([], [])
        | '\n' :: more => .ok ([], more.dropWhile isSpaceOrFeed)
        | more => fail .backslash more
    else
      match escaped c with
      | some d => .ok ([d], rest)
      | none => fail .backslash rest

def basic (feeds : Bool) : Nat → Text → Text → Except TomlError (Text × Text)
  | 0, _, text => fail .unterminated text
  | _ + 1, _, [] => fail .unterminated []
  | fuel + 1, done, '"' :: rest =>
    if !feeds then .ok (done.reverse, rest)
    else
      match rest with
      | '"' :: '"' :: more => .ok (done.reverse, more)
      | more => basic feeds fuel ('"' :: done) more
  | fuel + 1, done, '\\' :: rest => do
      let (t, rest) ← escape feeds rest
      basic feeds fuel (t.reverse ++ done) rest
  | fuel + 1, done, c :: rest =>
    if isControl c && !(feeds && c == '\n') then fail (.illegal c) (c :: rest)
    else basic feeds fuel (c :: done) rest

def extraQuotes (mark : Char) (found : Text × Text) : Text × Text :=
  match found with
  | (t, c :: d :: rest) =>
    if c == mark then (if d == mark then (t ++ [mark, mark], rest) else (t ++ [mark], d :: rest))
    else found
  | (t, [c]) => if c == mark then (t ++ [mark], []) else found
  | found => found

def dropFeed : Text → Text
  | '\n' :: rest => rest
  | text => text

def longBasic (text : Text) : Except TomlError (Text × Text) :=
  let text := dropFeed text
  (basic true (text.length + 1) [] text).map (extraQuotes '"')

def longLiteral (text : Text) : Except TomlError (Text × Text) :=
  (literal ['\'', '\'', '\''] true (dropFeed text)).map (extraQuotes '\'')

/-! ## Keys -/

def isBare (c : Char) : Bool := c.isAlphanum || c == '-' || c == '_'

def keyPart (text : Text) : Except TomlError (Text × Text) :=
  match text with
  | '\'' :: rest => literal ['\''] false rest
  | '"' :: rest => basic false (rest.length + 1) [] rest
  | text =>
    let part := text.takeWhile isBare
    if part.isEmpty then fail .keyStart text else .ok (part, text.drop part.length)

def key : Nat → Text → Except TomlError (TomlKey × Text)
  | 0, text => fail .keyStart text
  | fuel + 1, text => do
      let (part, rest) ← keyPart text
      match skip rest with
      | '.' :: more => do
          let (parts, rest) ← key fuel (skip more)
          return (part :: parts, rest)
      | rest => return ([part], rest)

/-! ## Plain values -/

def digits (isDigit : Char → Bool) : Nat → Text → Text × Text
  | 0, text => ([], text)
  | fuel + 1, c :: rest =>
    if isDigit c then
      let (more, rest) := match rest with
        | '_' :: d :: after => if isDigit d then digits isDigit fuel (d :: after) else ([], rest)
        | rest => digits isDigit fuel rest
      (c :: more, rest)
    else ([], c :: rest)
  | _ + 1, [] => ([], [])

def isHexDigit (c : Char) : Bool := (hexValue c).isSome

def baseValue (base : Nat) (ds : Text) : Nat :=
  ds.foldl (fun n c => n * base + (hexValue c).getD 0) 0

def based? (text : Text) : Option (Toml × Text) :=
  let read := fun (base : Nat) (isDigit : Char → Bool) (rest : Text) =>
    let (ds, rest) := digits isDigit (rest.length + 1) rest
    if ds.isEmpty then none else some (Toml.int (baseValue base ds), rest)
  match text with
  | '0' :: 'x' :: rest => read 16 isHexDigit rest
  | '0' :: 'b' :: rest => read 2 (fun c => c == '0' || c == '1') rest
  | '0' :: 'o' :: rest => read 8 (fun c => '0' ≤ c && c ≤ '7') rest
  | _ => none

def exponent? (text : Text) : Option (Int × Text) :=
  match text with
  | e :: rest =>
    if e == 'e' || e == 'E' then
      let (sign, rest) : Int × Text := match rest with
        | '+' :: more => (1, more)
        | '-' :: more => (-1, more)
        | more => (1, more)
      let (ds, rest) := digits Char.isDigit (rest.length + 1) rest
      if ds.isEmpty then none else some (sign * (baseValue 10 ds : Nat), rest)
    else none
  | [] => none

def number? (text : Text) : Option (Toml × Text) :=
  let (negative, body) := match text with
    | '-' :: rest => (true, rest)
    | '+' :: rest => (false, rest)
    | rest => (false, rest)
  let (whole, rest) := match body with
    | '0' :: rest => (['0'], rest)
    | rest => digits Char.isDigit (rest.length + 1) rest
  if whole.isEmpty then none
  else
    let (fraction, rest) := match rest with
      | '.' :: more =>
        let (ds, after) := digits Char.isDigit (more.length + 1) more
        if ds.isEmpty then ([], rest) else (ds, after)
      | rest => ([], rest)
    let (exponent, isFloat, rest) := match exponent? rest with
      | some (e, after) => (e, true, after)
      | none => (0, !fraction.isEmpty, rest)
    if isFloat then
      let d := Double.ofDecimal (baseValue 10 (whole ++ fraction)) (exponent - fraction.length)
      some (.float (if negative then d.neg else d), rest)
    else
      let n : Int := baseValue 10 whole
      some (.int (if negative then -n else n), rest)

def twoDigits (low high : Nat) (text : Text) : Option (Nat × Text) :=
  match text with
  | a :: b :: rest =>
    if a.isDigit && b.isDigit then
      let n := baseValue 10 [a, b]
      if low ≤ n ∧ n ≤ high then some (n, rest) else none
    else none
  | _ => none

def mark (c : Char) (text : Text) : Option Text :=
  match text with
  | d :: rest => if c == d then some rest else none
  | [] => none

def clock? (text : Text) : Option (TimeOfDay × Text) := do
  let (hour, rest) ← twoDigits 0 23 text
  let (minute, rest) ← twoDigits 0 59 (← mark ':' rest)
  let (second, rest) ← twoDigits 0 59 (← mark ':' rest)
  match rest with
  | '.' :: more =>
    let ds := more.takeWhile Char.isDigit
    if ds.isEmpty then return (⟨hour, minute, second, 0, none⟩, rest)
    let shown := ds.take 6
    let micro := baseValue 10 (shown ++ List.replicate (6 - shown.length) '0')
    return (⟨hour, minute, second, micro, none⟩, more.drop ds.length)
  | rest => return (⟨hour, minute, second, 0, none⟩, rest)

def offset (text : Text) : Option Duration × Text :=
  match text with
  | 'Z' :: rest | 'z' :: rest => (some ⟨0⟩, rest)
  | sign :: rest =>
    if sign == '+' || sign == '-' then
      match (do
        let (h, rest) ← twoDigits 0 23 rest
        let (m, rest) ← twoDigits 0 59 (← mark ':' rest)
        return (h, m, rest) : Option (Nat × Nat × Text)) with
      | some (h, m, rest) =>
        let size : Int := (h * 60 + m : Nat) * 60000000
        (some ⟨if sign == '-' then -size else size⟩, rest)
      | none => (none, text)
    else (none, text)
  | [] => (none, [])

def moment? (text : Text) : Option (Date × Option TimeOfDay × Text) := do
  let year := text.take 4
  if year.length ≠ 4 || !year.all Char.isDigit then none
  let (month, rest) ← twoDigits 1 12 (← mark '-' (text.drop 4))
  let (day, rest) ← twoDigits 1 31 (← mark '-' rest)
  let d : Date := ⟨baseValue 10 year, month, day⟩
  match rest with
  | c :: more =>
    if c == 'T' || c == 't' || c == ' ' then
      match clock? more with
      | some (t, rest) =>
        let (o, rest) := offset rest
        return (d, some { t with offset := o }, rest)
      | none => return (d, none, rest)
    else return (d, none, rest)
  | [] => return (d, none, [])

def named? (text : Text) : Option (Toml × Text) :=
  let table : List (String × Double) := [("inf", .infinity), ("nan", .undefined),
    ("+inf", .infinity), ("-inf", .neg .infinity), ("+nan", .undefined), ("-nan", .neg .undefined)]
  (table.find? fun e => e.1.toList.isPrefixOf text).map fun (name, d) =>
    (.float d, text.drop name.length)

/-! ## Tables -/

def get? (members : List (Text × Toml)) (name : Text) : Option Toml :=
  (members.find? fun m => m.1 == name).map Prod.snd

def set (members : List (Text × Toml)) (name : Text) (v : Toml) : List (Text × Toml) :=
  if members.any (·.1 == name) then
    members.map fun m => if m.1 == name then (name, v) else m
  else members ++ [(name, v)]

/-- Change the table under a key, making tables on the way; `lists` says whether the way may lead
through the last element of an array.  `none` if something else stands in the way. -/
def updateAt (lists : Bool) (f : List (Text × Toml) → Option (List (Text × Toml))) :
    TomlKey → List (Text × Toml) → Option (List (Text × Toml))
  | [], members => f members
  | name :: rest, members => do
      match (get? members name).getD (.table []) with
      | .table inner => return set members name (.table (← updateAt lists f rest inner))
      | .arr items =>
        if !lists then none
        match items.getLast? with
        | some (.table inner) =>
          return set members name (.arr (items.dropLast ++ [.table (← updateAt lists f rest inner)]))
        | _ => none
      | _ => none

/-- What is known about a key. -/
structure Mark where
  key : TomlKey
  /-- Whether the table there cannot be added to; otherwise it cannot be declared again. -/
  frozen : Bool
  /-- Whether the mark holds of all keys below, too. -/
  below : Bool
  deriving DecidableEq, Repr

def marked (marks : List Mark) (key : TomlKey) (frozen : Bool) : Bool :=
  !key.isEmpty && marks.any fun m =>
    m.frozen == frozen && (m.key == key || (m.below && m.key.isPrefixOf key))

def isNest : Toml → Bool
  | .arr _ | .table _ => true
  | _ => false

/-! ## Values -/

mutual

def value : Nat → Text → Except TomlError (Toml × Text)
  | 0, text => fail .value text
  | fuel + 1, text =>
    match text with
    | '"' :: '"' :: '"' :: rest => (longBasic rest).map fun (t, rest) => (.str t, rest)
    | '"' :: rest => (basic false (rest.length + 1) [] rest).map fun (t, rest) => (.str t, rest)
    | '\'' :: '\'' :: '\'' :: rest => (longLiteral rest).map fun (t, rest) => (.str t, rest)
    | '\'' :: rest => (literal ['\''] false rest).map fun (t, rest) => (.str t, rest)
    | 't' :: 'r' :: 'u' :: 'e' :: rest => .ok (.bool true, rest)
    | 'f' :: 'a' :: 'l' :: 's' :: 'e' :: rest => .ok (.bool false, rest)
    | '[' :: rest => do
        match (← skipAll (rest.length + 1) rest) with
        | ']' :: more => return (.arr [], more)
        | more => elements fuel [] more
    | '\x7b' :: rest =>
      match skip rest with
      | '\x7d' :: more => .ok (.table [], more)
      | more => inlineMembers fuel [] [] more
    | text =>
      match moment? text with
      | some (d, t, rest) =>
        if d.check.isSome then fail .dateRange text
        else match t with
          | some t => .ok (.datetime ⟨d, t⟩, rest)
          | none => .ok (.date d, rest)
      | none =>
        match (clock? text).map fun (t, rest) => (Toml.time t, rest) with
        | some found => .ok found
        | none =>
          match (based? text).or ((number? text).or (named? text)) with
          | some found => .ok found
          | none => fail .value text

def elements : Nat → List Toml → Text → Except TomlError (Toml × Text)
  | 0, _, text => fail .unclosedArray text
  | fuel + 1, done, text => do
      let (v, rest) ← value fuel text
      match (← skipAll (rest.length + 1) rest) with
      | ']' :: more => return (.arr (v :: done).reverse, more)
      | ',' :: more => do
          match (← skipAll (more.length + 1) more) with
          | ']' :: more => return (.arr (v :: done).reverse, more)
          | more => elements fuel (v :: done) more
      | more => fail .unclosedArray more

def inlineMembers : Nat → List Mark → List (Text × Toml) → Text → Except TomlError (Toml × Text)
  | 0, _, _, text => fail .unclosedTable text
  | fuel + 1, marks, members, text => do
      let (k, rest) ← key (text.length + 1) text
      match rest with
      | '=' :: more => do
          let (v, rest) ← value fuel (skip more)
          if marked marks k true then fail (.immutable k) rest
          let stem := k.getLast?.getD []
          match updateAt false some k.dropLast members with
          | none => fail .overwritten rest
          | some _ =>
            match updateAt false (fun nest =>
                if (get? nest stem).isSome then none else some (nest ++ [(stem, v)])) k.dropLast members with
            | none => fail (.duplicateKey stem) rest
            | some members =>
              match skip rest with
              | '\x7d' :: more => return (.table members, more)
              | ',' :: more =>
                let marks := if v.isNest then ⟨k, true, true⟩ :: marks else marks
                inlineMembers fuel marks members (skip more)
              | more => fail .unclosedTable more
      | rest => fail .equals rest

end

/-! ## Statements -/

structure Reading where
  members : List (Text × Toml) := []
  marks : List Mark := []
  /-- Keys that are marked as declared when the next table begins. -/
  pending : List TomlKey := []
  header : TomlKey := []

def Reading.settle (s : Reading) : Reading :=
  { s with marks := s.pending.map (⟨·, false, false⟩) ++ s.marks, pending := [] }

def declareTable (s : Reading) (text : Text) : Except TomlError (Reading × Text) := do
  let text := skip text
  let (k, rest) ← key (text.length + 1) text
  if marked s.marks k false || marked s.marks k true then fail (.declaredTwice k) rest
  match updateAt true some k s.members with
  | none => fail .overwritten rest
  | some members =>
    match rest with
    | ']' :: more =>
      return ({ s with members, marks := ⟨k, false, false⟩ :: s.marks, header := k }, more)
    | rest => fail .tableEnd rest

def declareElement (s : Reading) (text : Text) : Except TomlError (Reading × Text) := do
  let text := skip text
  let (k, rest) ← key (text.length + 1) text
  if marked s.marks k true then fail (.immutable k) rest
  let stem := k.getLast?.getD []
  match updateAt true (fun nest =>
      match get? nest stem with
      | none => some (nest ++ [(stem, .arr [.table []])])
      | some (.arr items) => some (set nest stem (.arr (items ++ [.table []])))
      | some _ => none) k.dropLast s.members with
  | none => fail .overwritten rest
  | some members =>
    match rest with
    | ']' :: ']' :: more =>
      let marks := ⟨k, false, false⟩ :: s.marks.filter fun m => !k.isPrefixOf m.key
      return ({ s with members, marks, header := k }, more)
    | rest => fail .arrayTableEnd rest

def assign (s : Reading) (text : Text) : Except TomlError (Reading × Text) := do
  let (k, rest) ← key (text.length + 1) text
  match rest with
  | '=' :: more => do
      let (v, rest) ← value (more.length + 1) (skip more)
      let ways := (List.range (k.length - 1)).map fun n => s.header ++ k.take (n + 1)
      match ways.find? fun way => marked s.marks way false with
      | some way => fail (.redefined way) rest
      | none =>
        let parent := s.header ++ k.dropLast
        if marked s.marks parent true then fail (.immutable parent) rest
        let stem := k.getLast?.getD []
        match updateAt true (fun nest =>
            if (get? nest stem).isSome then none else some (nest ++ [(stem, v)])) parent s.members with
        | none => fail .overwritten rest
        | some members =>
          let marks := if v.isNest then ⟨s.header ++ k, true, true⟩ :: s.marks else s.marks
          return ({ s with members, marks, pending := ways ++ s.pending }, rest)
  | rest => fail .equals rest

def statements : Nat → Reading → Text → Except TomlError Reading
  | 0, s, _ => .ok s
  | fuel + 1, s, text => do
      match skip text with
      | [] => return s
      | '\n' :: rest => statements fuel s rest
      | c :: rest =>
        let (s, rest) ← match c, rest with
          | '[', '[' :: more => declareElement s.settle more
          | '[', more => declareTable s.settle more
          | c, rest =>
            if isBare c || c == '"' || c == '\'' then assign s (c :: rest)
            else if c == '#' then pure (s, c :: rest)
            else fail .statement (c :: rest)
        match (← skipComment (skip rest)) with
        | [] => return s
        | '\n' :: more => statements fuel s more
        | more => fail .statementEnd more

def plainFeeds : Text → Text
  | '\r' :: '\n' :: rest => '\n' :: plainFeeds rest
  | c :: rest => c :: plainFeeds rest
  | [] => []

def parse (text : Text) : Except String (List (Text × Toml)) :=
  let text := plainFeeds text
  match statements (text.length + 1) {} text with
  | .ok s => .ok s.members
  | .error e => .error (e.message text)

end Toml

end MacroExpand
