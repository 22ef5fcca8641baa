import MacroExpand.Number.Reading
import MacroExpand.Text.CharacterNames
import MacroExpand.Text.Identifier
import MacroExpand.Text.Pattern

/-!
# Reading patterns

A pattern is written as alternatives of parts in a row.  Reading looks one mark ahead, a mark being
a character or a backslash with the character behind it, so a lone backslash at the end is found as
soon as the mark in front of it is taken.
-/

set_option autoImplicit false

namespace MacroExpand

inductive PatternError where
  /-- Something is wrong at a place of the text. -/
  | misread (reason : String) (place : Nat) (text : Text)
  /-- The pattern asks for what cannot be matched. -/
  | refused (reason : String)
  /-- The number of a repetition is out of bounds. -/
  | tooMany
  /-- Two choices of alphabet exclude each other. -/
  | mixedAlphabets
  deriving DecidableEq, Repr, Inhabited

/-- The text a fault in a pattern is reported with.  In a pattern of several lines it also names
line and column. -/
def PatternError.message : PatternError → String
  | .misread reason place text =>
    let before := text.take place
    reason ++ " at position " ++ toString place ++
      (if text.contains '\n' then
        " (line " ++ toString (before.count '\n' + 1) ++ ", column " ++
          toString ((before.reverse.takeWhile (· != '\n')).length + 1) ++ ")"
      else "")
  | .refused reason => reason
  | .tooMany => "the repetition number is too large"
  | .mixedAlphabets => "ASCII and UNICODE flags are incompatible"

namespace Pattern

/-! ## State -/

/-- What holds for the parts of a pattern. -/
structure Flags where
  ascii : Bool := false
  unicode : Bool := false
  ignoresCase : Bool := false
  ofLines : Bool := false
  dotAll : Bool := false
  verbose : Bool := false
  template : Bool := false
  deriving DecidableEq, Repr, Inhabited

namespace Flags

def named? : Char → Option Flags
  | 'a' => some { ascii := true }
  | 'u' => some { unicode := true }
  | 'i' => some { ignoresCase := true }
  | 'm' => some { ofLines := true }
  | 's' => some { dotAll := true }
  | 'x' => some { verbose := true }
  | 't' => some { template := true }
  | 'L' => some {}
  | _ => none

def or (f g : Flags) : Flags :=
  { ascii := f.ascii || g.ascii, unicode := f.unicode || g.unicode
    ignoresCase := f.ignoresCase || g.ignoresCase, ofLines := f.ofLines || g.ofLines
    dotAll := f.dotAll || g.dotAll, verbose := f.verbose || g.verbose
    template := f.template || g.template }

def without (f g : Flags) : Flags :=
  { ascii := f.ascii && !g.ascii, unicode := f.unicode && !g.unicode
    ignoresCase := f.ignoresCase && !g.ignoresCase, ofLines := f.ofLines && !g.ofLines
    dotAll := f.dotAll && !g.dotAll, verbose := f.verbose && !g.verbose
    template := f.template && !g.template }

def isAlphabet (f : Flags) : Bool := f.ascii || f.unicode

def within (f on off : Flags) : Flags :=
  let f := if on.isAlphabet then { f with ascii := false, unicode := false } else f
  (f.or on).without off

def comparison (f : Flags) : Comparison := { ascii := f.ascii, ignoresCase := f.ignoresCase }

end Flags

/-- How far reading has come. -/
structure Reading where
  whole : Text
  /-- The next mark. -/
  next : Option Text := none
  /-- What stands behind the next mark. -/
  rest : Text
  /-- The place of the next mark. -/
  place : Nat := 0
  flags : Flags := {}
  /-- For each group whether it is closed; the whole pattern is the first and is not. -/
  groups : Array Bool := #[false]
  names : List (Text × Nat) := []
  /-- The number of groups in front of the outermost part that looks behind. -/
  behind : Option Nat := none
  /-- The groups that are asked for by number, and where. -/
  asked : List (Nat × Nat) := []
  deriving Inhabited

abbrev ReadM := StateT Reading (Except PatternError)

def faultBack {α : Type} (back : Nat) (reason : String) : ReadM α := do
  let s ← get
  throw (.misread reason (s.place - back) s.whole)

def faultAt {α : Type} (place : Nat) (reason : String) : ReadM α := do
  throw (.misread reason place (← get).whole)

def advance : ReadM Unit := do
  let s ← get
  let place := s.place + (s.next.map List.length).getD 0
  match s.rest with
  | [] => set { s with next := none, place }
  | ['\\'] => faultAt (s.whole.length - 1) "bad escape (end of pattern)"
  | '\\' :: c :: rest => set { s with next := some ['\\', c], rest, place }
  | c :: rest => set { s with next := some [c], rest, place }

def take : ReadM (Option Text) := do
  let mark := (← get).next
  advance
  return mark

def takeIf (c : Char) : ReadM Bool := do
  if (← get).next = some [c] then
    advance
    return true
  return false

def takeSome (isWanted : Char → Bool) : Nat → ReadM Text
  | 0 => return []
  | count + 1 => do
      match (← get).next with
      | some [c] =>
        if isWanted c then do
          advance
          return c :: (← takeSome isWanted count)
        else return []
      | _ => return []

def takeUntil (mark : Char) (what : String) : Nat → Text → ReadM Text
  | 0, taken => return taken
  | fuel + 1, taken => do
      match (← take) with
      | none =>
        if taken.isEmpty then faultBack 0 ("missing " ++ what)
        else faultBack taken.length ("missing " ++ String.singleton mark ++ ", unterminated name")
      | some c =>
        if c = [mark] then
          if taken.isEmpty then faultBack 1 ("missing " ++ what) else return taken
        else takeUntil mark what fuel (taken ++ c)

def takeName (mark : Char) (what : String) : ReadM Text := do
  takeUntil mark what ((← get).whole.length + 2) []

/-! ## Escapes -/

inductive Escape where
  | code (n : Nat)
  | kind (k : CharKind) (isMember : Bool)
  | spot (s : Spot)
  | group (n : Nat)

def isOctal (c : Char) : Bool := '0' ≤ c && c ≤ '7'

def octalValue (digits : Text) : Nat := digits.foldl (fun n c => n * 8 + (c.toNat - 48)) 0

def kindOf? : Char → Option Escape
  | 'd' => some (.kind .digit true)
  | 'D' => some (.kind .digit false)
  | 's' => some (.kind .blank true)
  | 'S' => some (.kind .blank false)
  | 'w' => some (.kind .word true)
  | 'W' => some (.kind .word false)
  | _ => none

def spotOf? : Char → Option Escape
  | 'A' => some (.spot (.start false))
  | 'b' => some (.spot (.edge true))
  | 'B' => some (.spot (.edge false))
  | 'Z' => some (.spot .bottom)
  | _ => none

def controlOf? : Char → Option Nat
  | 'a' => some 7
  | 'b' => some 8
  | 'f' => some 12
  | 'n' => some 10
  | 'r' => some 13
  | 't' => some 9
  | 'v' => some 11
  | _ => none

def hexEscape (letter : Char) (count : Nat) : ReadM Escape := do
  let digits ← takeSome (fun c => (hexValue c).isSome) count
  let written := '\\' :: letter :: digits
  if digits.length < count then
    faultBack written.length ("incomplete escape " ++ String.ofList written)
  let n := (hexNumber digits).getD 0
  if 0x110000 ≤ n then faultBack written.length ("bad escape " ++ String.ofList written)
  return .code n

def namedEscape : ReadM Escape := do
  if !(← takeIf '\x7b') then faultBack 0 "missing \x7b"
  let name ← takeName '\x7d' "character name"
  match characterNamed? name with
  | some c => return .code c.toNat
  | none =>
    faultBack (name.length + 4) ("undefined character name " ++ String.ofList (Text.quoted name))

def sharedEscape (c : Char) : ReadM (Option Escape) :=
  match c with
  | 'x' => some <$> hexEscape c 2
  | 'u' => some <$> hexEscape c 4
  | 'U' => some <$> hexEscape c 8
  | 'N' => some <$> namedEscape
  | _ => return none

def plainEscape (c : Char) : ReadM Escape := do
  if c.isAlphanum then faultBack 2 ("bad escape \\" ++ String.singleton c)
  return .code c.toNat

def octalFault {α : Type} (written : Text) : ReadM α :=
  faultBack written.length
    ("octal escape value " ++ String.ofList written ++ " outside of range 0-0o377")

def setEscape (c : Char) : ReadM Escape := do
  match controlOf? c, kindOf? c with
  | some n, _ => return .code n
  | none, some e => return e
  | none, none =>
    match (← sharedEscape c) with
    | some e => return e
    | none =>
      if isOctal c then
        let digits := c :: (← takeSome isOctal 2)
        if 0o377 < octalValue digits then octalFault ('\\' :: digits)
        return .code (octalValue digits)
      else plainEscape c

def isClosed (n : Nat) : ReadM Bool := return (← get).groups.getD n false

def checkBehind (n : Nat) : ReadM Unit := do
  match (← get).behind with
  | none => return ()
  | some count =>
    if !(← isClosed n) then faultBack 0 "cannot refer to an open group"
    if count ≤ n then
      faultBack 0 "cannot refer to group defined in the same lookbehind subpattern"

def numberEscape (c : Char) : ReadM Escape := do
  let digits := c :: (← takeSome Char.isDigit 1)
  let third ← if digits.length = 2 ∧ digits.all isOctal then takeSome isOctal 1 else pure []
  if !third.isEmpty then
    let digits := digits ++ third
    if 0o377 < octalValue digits then octalFault ('\\' :: digits)
    return .code (octalValue digits)
  let n := Number.digitsValue digits
  if n < (← get).groups.size then
    if !(← isClosed n) then faultBack (digits.length + 1) "cannot refer to an open group"
    checkBehind n
    return .group n
  faultBack digits.length ("invalid group reference " ++ toString n)

def partEscape (c : Char) : ReadM Escape := do
  match (spotOf? c).or (kindOf? c), controlOf? c with
  | some e, _ => return e
  | none, some n => return .code n
  | none, none =>
    match (← sharedEscape c) with
    | some e => return e
    | none =>
      if c = '0' then return .code (octalValue (c :: (← takeSome isOctal 2)))
      else if c.isDigit then numberEscape c
      else plainEscape c

/-! ## Sets -/

def setItem (mark : Text) : ReadM Escape :=
  match mark with
  | ['\\', c] => setEscape c
  | c :: _ => return .code c.toNat
  | [] => return .code 0

def Escape.member : Escape → SetMember
  | .kind k isMember => .kind k isMember
  | .code n => .code n
  | _ => .code 0

def setMembers (opening : Nat) : Nat → List SetMember → ReadM (List SetMember)
  | 0, members => return members
  | fuel + 1, members => do
      match (← take) with
      | none => faultAt opening "unterminated character set"
      | some this =>
        if this = [']'] ∧ !members.isEmpty then return members
        let first ← setItem this
        if (← takeIf '-') then
          match (← take) with
          | none => faultAt opening "unterminated character set"
          | some [']'] => return members ++ [first.member, .code '-'.toNat]
          | some that =>
            let last ← setItem that
            let fault : ReadM (List SetMember) := faultBack (this.length + 1 + that.length)
              ("bad character range " ++ String.ofList (this ++ '-' :: that))
            match first, last with
            | .code low, .code high =>
              if high < low then fault
              else setMembers opening fuel (members ++ [.range low high])
            | _, _ => fault
        else setMembers opening fuel (members ++ [first.member])

def readSet : ReadM CharTest := do
  let opening := (← get).place - 1
  let negated ← takeIf '^'
  let members ← setMembers opening ((← get).whole.length + 2) []
  match members.eraseDups with
  | [.code n] => return .code n !negated
  | members => return .set members !negated

/-! ## Repetitions -/

def repetitionLimit : Nat := 4294967295

def readBounds : ReadM (Option (Nat × Option Nat)) := do
  let s ← get
  if s.next = some ['\x7d'] then return none
  let size := s.whole.length
  let low ← takeSome Char.isDigit size
  let high ← if (← takeIf ',') then takeSome Char.isDigit size else pure low
  if !(← takeIf '\x7d') then
    set s
    return none
  let least := Number.digitsValue low
  let most := Number.digitsValue high
  if repetitionLimit ≤ least then throw .tooMany
  if !high.isEmpty then
    if repetitionLimit ≤ most then throw .tooMany
    if most < least then faultAt s.place "min repeat greater than max repeat"
  return some (least, if high.isEmpty then none else some most)

def boundsOf (mark : Char) : ReadM (Option (Nat × Option Nat)) :=
  match mark with
  | '?' => return some (0, some 1)
  | '*' => return some (0, none)
  | '+' => return some (1, none)
  | _ => readBounds

def readPreference : ReadM Preference := do
  if (← takeIf '?') then return .few
  if (← takeIf '+') then return .most
  return .many

/-! ## Flags -/

def flagsOn : Nat → Flags → Char → ReadM (Flags × Char)
  | 0, on, c => return (on, c)
  | fuel + 1, on, c => do
      match Flags.named? c with
      | none => return (on, c)
      | some flag =>
        if c = 'L' then faultBack 0 "bad inline flags: cannot use 'L' flag with a str pattern"
        let on := on.or flag
        if flag.isAlphabet ∧ on.ascii ∧ on.unicode then
          faultBack 0 "bad inline flags: flags 'a', 'u' and 'L' are incompatible"
        match (← take) with
        | none => faultBack 0 "missing -, : or )"
        | some [c] =>
          if c = ')' ∨ c = '-' ∨ c = ':' then return (on, c)
          if (Flags.named? c).isNone then
            faultBack 1 (if isLetter c then "unknown flag" else "missing -, : or )")
          flagsOn fuel on c
        | some mark => faultBack mark.length "missing -, : or )"

def flagsOff : Nat → Flags → String → ReadM Flags
  | 0, off, _ => return off
  | fuel + 1, off, missing => do
      match (← take) with
      | none => faultBack 0 missing
      | some [c] =>
        if c = ':' ∧ missing = "missing :" then return off
        match Flags.named? c with
        | none => faultBack 1 (if isLetter c then "unknown flag" else missing)
        | some flag =>
          if flag.isAlphabet ∨ c = 'L' then
            faultBack 0 "bad inline flags: cannot turn off flags 'a', 'u' and 'L'"
          flagsOff fuel (off.or flag) "missing :"
      | some mark => faultBack mark.length missing

/-- Flags from a letter or a minus sign on: those of the whole pattern, or those that a group turns
on and off. -/
def readFlags (c : Char) : ReadM (Option (Flags × Flags)) := do
  let fuel := (← get).whole.length + 2
  let (on, c) ← if c = '-' then pure ({}, c) else flagsOn fuel {} c
  if c = ')' then
    modify fun s => { s with flags := s.flags.or on }
    return none
  if on.template then faultBack 1 "bad inline flags: cannot turn on global flag"
  let off ← if c = '-' then flagsOff fuel {} "missing flag" else pure {}
  if off.template then faultBack 1 "bad inline flags: cannot turn off global flag"
  if on.without off ≠ on then faultBack 1 "bad inline flags: flag turned on and off"
  return some (on, off)

/-! ## Parts -/

/-- A part of a pattern, and what repetitions ask of it. -/
structure Part where
  pattern : Pattern
  isSpot : Bool := false
  isRepeated : Bool := false

def sequence : List Part → Pattern
  | [] => .nothing
  | [p] => p.pattern
  | p :: before => .seq (sequence before) p.pattern

def groupName (mark : Char) : ReadM Text := do
  let name ← takeName mark "group name"
  if !name.isName then
    faultBack (name.length + 1) ("bad character in group name " ++ String.ofList (Text.quoted name))
  return name

def openGroup (name : Option Text) : ReadM Nat := do
  let s ← get
  let number := s.groups.size
  match name with
  | none => set { s with groups := s.groups.push false }
  | some name =>
    match s.names.lookup name with
    | some old =>
      faultBack (name.length + 1) ("redefinition of group name " ++
        String.ofList (Text.quoted name) ++ " as group " ++ toString number ++ "; was group " ++
        toString old)
    | none => set { s with groups := s.groups.push false, names := (name, number) :: s.names }
  return number

def groupLimit : Nat := 1073741823

def conditionGroup : ReadM Nat := do
  let name ← takeName ')' "group name"
  let back := name.length + 1
  let written := String.ofList (Text.quoted name)
  if name.isName then
    match (← get).names.lookup name with
    | some n => return n
    | none => faultBack back ("unknown group name " ++ written)
  else
    match Number.readInt 10 name with
    | none => faultBack back ("bad character in group name " ++ written)
    | some n =>
      if n < 0 then faultBack back ("bad character in group name " ++ written)
      if n = 0 then faultBack back "bad group number"
      let n := n.toNat
      if groupLimit ≤ n then faultBack back ("invalid group reference " ++ toString n)
      let s ← get
      if (s.asked.lookup n).isNone then
        set { s with asked := s.asked ++ [(n, s.place - back)] }
      return n

def skipRemark (opening : Nat) : Nat → ReadM Unit
  | 0 => return ()
  | fuel + 1 => do
      match (← take) with
      | none => faultAt opening "missing ), unterminated comment"
      | some mark => if mark = [')'] then return () else skipRemark opening fuel

def skipLine : Nat → ReadM Unit
  | 0 => return ()
  | fuel + 1 => do
      match (← take) with
      | none => return ()
      | some mark => if mark = ['\n'] then return () else skipLine fuel

def closeBracket (opening : Nat) : ReadM Unit := do
  if !(← takeIf ')') then faultAt opening "missing ), unterminated subpattern"

/-- Flags of a part: those that groups around it set, on top of those of the whole pattern. -/
abbrev Scope := Flags → Flags

mutual

def readAlternatives (scope : Scope) (isTop : Bool) : Nat → Bool → ReadM Pattern
  | 0, _ => return .nothing
  | fuel + 1, isFirst => do
      let p ← readSequence scope (isTop && isFirst) fuel []
      if (← takeIf '|') then return .alt p (← readAlternatives scope isTop fuel false)
      return p

/-- Parts in a row behind the parts read so far.  Where `atStart` holds, flags of the whole pattern
may stand in front of them. -/
def readSequence (scope : Scope) (atStart : Bool) : Nat → List Part → ReadM Pattern
  | 0, parts => return sequence parts
  | fuel + 1, parts => do
      let flags := scope (← get).flags
      let one := fun (test : CharTest) => Part.mk (.one flags.comparison test) false false
      let spot := fun (s : Spot) => Part.mk (.spot flags.comparison s) true false
      let place := (← get).place
      match (← get).next with
      | none => return sequence parts
      | some mark =>
        if mark = ['|'] ∨ mark = [')'] then return sequence parts
        advance
        let whole := (← get).whole.length
        match mark with
        | ['\\', c] =>
          let part ← match (← partEscape c) with
            | .code n => pure (one (.code n true))
            | .kind k isMember => pure (one (.set [.kind k isMember] true))
            | .spot s => pure (spot s)
            | .group n => pure { pattern := .again flags.comparison n }
          readSequence scope atStart fuel (part :: parts)
        | [c] =>
          if flags.verbose ∧ Number.isPlainBlank c then readSequence scope atStart fuel parts
          else if flags.verbose ∧ c = '#' then do
            skipLine (whole + 1)
            readSequence scope atStart fuel parts
          else if c = '[' then do
            readSequence scope atStart fuel (one (← readSet) :: parts)
          else if c = '.' then
            readSequence scope atStart fuel (one (.any flags.dotAll) :: parts)
          else if c = '^' then
            readSequence scope atStart fuel (spot (.start flags.ofLines) :: parts)
          else if c = '$' then
            readSequence scope atStart fuel (spot (.finish flags.ofLines) :: parts)
          else if c = '(' then do
            match (← readGroup scope (atStart && parts.isEmpty) fuel place) with
            | some part => readSequence scope atStart fuel (part :: parts)
            | none => readSequence scope atStart fuel parts
          else if c = '*' ∨ c = '+' ∨ c = '?' ∨ c = '\x7b' then do
            match (← boundsOf c) with
            | none => readSequence scope atStart fuel (one (.code c.toNat true) :: parts)
            | some (low, high) =>
              match parts with
              | [] => faultAt place "nothing to repeat"
              | part :: before =>
                if part.isSpot then faultAt place "nothing to repeat"
                if part.isRepeated then faultAt place "multiple repeat"
                let order ← readPreference
                let part : Part :=
                  { pattern := .rep order low high part.pattern, isRepeated := true }
                readSequence scope atStart fuel (part :: before)
          else readSequence scope atStart fuel (one (.code c.toNat true) :: parts)
        | _ => return sequence parts

def readGroup (scope : Scope) (atStart : Bool) : Nat → Nat → ReadM (Option Part)
  | 0, _ => return none
  | fuel + 1, opening => do
      let inner := fun (scope : Scope) => readAlternatives scope false fuel true
      let captured := fun (name : Option Text) => (do
        let number ← openGroup name
        let p ← inner scope
        closeBracket opening
        modify fun s => { s with groups := s.groups.setIfInBounds number true }
        return some { pattern := .group number p } : ReadM (Option Part))
      let plain := fun (use : Pattern → Pattern) (scope : Scope) => (do
        let p ← inner scope
        closeBracket opening
        return some { pattern := use p } : ReadM (Option Part))
      if !(← takeIf '?') then captured none
      else match (← take) with
        | none => faultBack 0 "unexpected end of pattern"
        | some ['P'] =>
          if (← takeIf '<') then do
            let name ← groupName '>'
            captured (some name)
          else if (← takeIf '=') then do
            let name ← groupName ')'
            match (← get).names.lookup name with
            | none =>
              faultBack (name.length + 1) ("unknown group name " ++ String.ofList (Text.quoted name))
            | some n =>
              if !(← isClosed n) then
                faultBack (name.length + 1) "cannot refer to an open group"
              checkBehind n
              return some { pattern := .again (scope (← get).flags).comparison n }
          else
            match (← take) with
            | none => faultBack 0 "unexpected end of pattern"
            | some mark =>
              faultBack (mark.length + 2) ("unknown extension ?P" ++ String.ofList mark)
        | some [':'] => plain id scope
        | some ['#'] => do
            skipRemark opening ((← get).whole.length + 1)
            return none
        | some ['='] => plain (.look false true) scope
        | some ['!'] => plain (.look false false) scope
        | some ['<'] =>
          match (← take) with
          | none => faultBack 0 "unexpected end of pattern"
          | some mark =>
            if mark ≠ ['='] ∧ mark ≠ ['!'] then
              faultBack (mark.length + 2) ("unknown extension ?<" ++ String.ofList mark)
            let outer := (← get).behind
            modify fun s => { s with behind := outer.or (some s.groups.size) }
            let p ← inner scope
            modify fun s => { s with behind := outer }
            closeBracket opening
            return some { pattern := .look true (mark == ['=']) p }
        | some ['('] => do
            let number ← conditionGroup
            checkBehind number
            let yes ← readSequence scope false fuel []
            let no ← if (← takeIf '|') then do
                let no ← readSequence scope false fuel []
                if (← get).next = some ['|'] then
                  faultBack 0 "conditional backref with more than two branches"
                pure no
              else pure .nothing
            closeBracket opening
            return some { pattern := .given number yes no }
        | some ['>'] => plain .only scope
        | some mark =>
          let c := mark.headD ' '
          if mark.length = 1 ∧ (c = '-' ∨ (Flags.named? c).isSome) then
            match (← readFlags c) with
            | none =>
              if !atStart then
                faultAt opening "global flags not at the start of the expression"
              return none
            | some (on, off) => plain id fun flags => (scope flags).within on off
          else faultBack (mark.length + 1) ("unknown extension ?" ++ String.ofList mark)

end

/-! ## Whole patterns -/

def widthLimit : Nat := 4294967295

/-- The first part that cannot be matched: one that looks behind and can match texts of several
lengths, or a repetition in a template. -/
def unusable? (isTemplate : Bool) (groups : Nat → Nat × Option Nat) : Pattern → Option String
  | .seq a b | .alt a b | .given _ a b =>
    (unusable? isTemplate groups a).orElse fun _ => unusable? isTemplate groups b
  | .rep order _ _ p =>
    if isTemplate then
      some ("internal: unsupported template operator " ++ match order with
        | .many => "MAX_REPEAT"
        | .few => "MIN_REPEAT"
        | .most => "POSSESSIVE_REPEAT")
    else unusable? isTemplate groups p
  | .group _ p | .only p => unusable? isTemplate groups p
  | .look behind _ p =>
    let (low, high) := p.width groups
    if behind && widthLimit < low then some "looks too much behind"
    else if behind && high != some low then some "look-behind requires fixed-width pattern"
    else unusable? isTemplate groups p
  | _ => none

def readWhole (size : Nat) : ReadM Pattern := do
  advance
  let p ← readAlternatives id true (3 * size + 3) true
  let s ← get
  if s.flags.ascii && s.flags.unicode then throw .mixedAlphabets
  if s.next.isSome then faultBack 0 "unbalanced parenthesis"
  match s.asked.find? fun (n, _) => s.groups.size ≤ n with
  | some (n, place) => faultAt place ("invalid group reference " ++ toString n)
  | none =>
    match unusable? s.flags.template (p.groupWidths fun _ => (0, some 0)) p with
    | some reason => throw (.refused reason)
    | none => return p

def ofText (text : Text) : Except PatternError Pattern :=
  (readWhole text.length).run' { whole := text, rest := text }

end Pattern

end MacroExpand
