import MacroExpand.Text.Case

/-!
# Patterns

A pattern describes texts.  Matching goes through the ways in which a pattern can match from the
preferred one on, and hands each to what is matched behind it; the first way that leads to the end
wins.  The groups of a pattern remember what they matched, and later parts can ask for it.
-/

set_option autoImplicit false

namespace MacroExpand

namespace Pattern

/-- How characters are compared: whether words and digits are the ASCII ones only, and whether case
counts. -/
structure Comparison where
  ascii : Bool := false
  ignoresCase : Bool := false
  deriving DecidableEq, Repr, Inhabited

inductive CharKind where
  | digit
  | blank
  | word
  deriving DecidableEq, Repr, Inhabited

inductive SetMember where
  | code (n : Nat)
  | range (low high : Nat)
  /-- The characters of a kind, or those that are not of it. -/
  | kind (k : CharKind) (isMember : Bool)
  deriving DecidableEq, Repr, Inhabited

inductive CharTest where
  /-- Any character, a line feed only if `all`. -/
  | any (all : Bool)
  /-- One character, or all but one. -/
  | code (n : Nat) (isSame : Bool)
  /-- The members of a set, or all that are no members. -/
  | set (members : List SetMember) (isMember : Bool)
  deriving DecidableEq, Repr, Inhabited

/-- Which number of matches in a row is tried first: many, few, or many and no other. -/
inductive Preference where
  | many
  | few
  | most
  deriving DecidableEq, Repr, Inhabited

inductive Spot where
  /-- The start of the text, or of a line if `ofLine`. -/
  | start (ofLine : Bool)
  /-- The end of the text or in front of a line feed that ends it; of a line if `ofLine`. -/
  | finish (ofLine : Bool)
  /-- The very end of the text. -/
  | bottom
  /-- A place where a word begins or ends, or one where none does. -/
  | edge (isEdge : Bool)
  deriving DecidableEq, Repr, Inhabited

end Pattern

inductive Pattern where
  /-- The empty text. -/
  | nothing
  | one (compared : Pattern.Comparison) (test : Pattern.CharTest)
  | seq (first second : Pattern)
  | alt (first second : Pattern)
  /-- At least `low` and at most `high` matches in a row. -/
  | rep (order : Pattern.Preference) (low : Nat) (high : Option Nat) (inner : Pattern)
  /-- A part that remembers what it matched. -/
  | group (number : Nat) (inner : Pattern)
  /-- What a group matched, once more. -/
  | again (compared : Pattern.Comparison) (number : Nat)
  /-- One of two patterns: the first if a group has matched. -/
  | given (number : Nat) (yes no : Pattern)
  /-- The preferred match and no other. -/
  | only (inner : Pattern)
  | spot (compared : Pattern.Comparison) (s : Pattern.Spot)
  /-- A place where a match begins, or ends if `behind`, or one where none does. -/
  | look (behind : Bool) (holds : Bool) (inner : Pattern)
  deriving Inhabited

namespace Pattern

/-! ## Characters -/

def sameUpper : List (List Nat) := [
  [0x69, 0x131], [0x73, 0x17f], [0xb5, 0x3bc], [0x345, 0x3b9, 0x1fbe], [0x390, 0x1fd3],
  [0x3b0, 0x1fe3], [0x3b2, 0x3d0], [0x3b5, 0x3f5], [0x3b8, 0x3d1], [0x3ba, 0x3f0], [0x3c0, 0x3d6],
  [0x3c1, 0x3f1], [0x3c2, 0x3c3], [0x3c6, 0x3d5], [0x432, 0x1c80], [0x434, 0x1c81],
  [0x43e, 0x1c82], [0x441, 0x1c83], [0x442, 0x1c84, 0x1c85], [0x44a, 0x1c86], [0x463, 0x1c87],
  [0x1c88, 0xa64b], [0x1e61, 0x1e9b], [0xfb05, 0xfb06]]

def sameCase (n : Nat) : List Nat := ((sameUpper.find? (·.contains n)).getD [n])

namespace Comparison

def lower (c : Comparison) (n : Nat) : Nat :=
  if n < 128 then (Char.ofNat n).toLower.toNat
  else if c.ascii then n
  else if n = 0x130 then 0x69
  else (caseIn lowerRuns n).getD n

def lowerSources (c : Comparison) (n : Nat) : List Nat :=
  let shifted := lowerRuns.map fun (_, _, _, distance) => ((n : Int) - distance).toNat
  ((n :: (if n < 128 then [(Char.ofNat n).toUpper.toNat, 0x130] else []) ++ shifted).filter
    fun m => c.lower m == n).eraseDups

def same (c : Comparison) (n : Nat) : List Nat := if c.ascii then [n] else sameCase n

def isKind (c : Comparison) (k : CharKind) (x : Char) : Bool :=
  let isAscii := x.toNat < 128
  match k with
  | .digit => if c.ascii then x.isDigit else isDecimal x
  | .blank => if c.ascii then (9 ≤ x.toNat && x.toNat ≤ 13) || x == ' ' else isBlank x
  | .word => x == '_' || (if c.ascii then isAscii && x.isAlphanum else isAlnum x)

/-- Whether a character, in lower case if case does not count, is a member of a set.  Beyond the
first 65536 characters a single member stands for itself only. -/
def isMember (c : Comparison) (x : Nat) : SetMember → Bool
  | .code n =>
    if !c.ignoresCase || 65536 ≤ c.lower n then x == n else (c.same (c.lower n)).contains x
  | .range low high =>
    let within := fun n => low ≤ n && n ≤ high
    if !c.ignoresCase then within x
    else ((c.same x).flatMap c.lowerSources).any (fun n => n < 65536 && within n)
      || (65536 ≤ high && (within x || within (((caseIn upperRuns x).getD x))))
  | .kind k positive => c.isKind k (Char.ofNat x) == positive

def passes (c : Comparison) (x : Char) : CharTest → Bool
  | .any all => all || x != '\n'
  | .code n isSame =>
    let isEqual :=
      if c.ignoresCase then (c.same (c.lower n)).contains (c.lower x.toNat) else x.toNat == n
    isEqual == isSame
  | .set members positive =>
    let x := if c.ignoresCase then c.lower x.toNat else x.toNat
    members.any (c.isMember x) == positive

/-- Whether a place in a text is of some sort.  A text without characters has neither edges of
words nor places that are none. -/
def isAt (c : Comparison) (text : Array Char) (i : Nat) : Spot → Bool
  | .start ofLine => i == 0 || (ofLine && text[i - 1]? == some '\n')
  | .finish ofLine =>
    i == text.size || (text[i]? == some '\n' && (ofLine || i + 1 == text.size))
  | .bottom => i == text.size
  | .edge isEdge =>
    let inWord := fun (x : Option Char) => x.any (c.isKind .word)
    let found := inWord (if i = 0 then none else text[i - 1]?) != inWord text[i]?
    !text.isEmpty && found == isEdge

end Comparison

/-! ## Matching -/

/-- What groups have matched, the last match first: first place and the place behind the last. -/
abbrev Captures := List (Nat × Nat × Nat)

abbrev Rest := Nat → Captures → Option (Nat × Captures)

abbrev Matcher := Nat → Captures → Rest → Option (Nat × Captures)

/-- Matches in a row.  `low` are still due, `high` still allowed; at the place `last` one of them
began, so another from there would lead nowhere new. -/
def repeated (step : Matcher) (order : Preference) :
    Nat → Nat → Option Nat → Option Nat → Matcher
  | 0, _, _, _, _, _, _ => none
  | fuel + 1, low, high, last, i, caps, rest =>
    if low > 0 then
      step i caps fun j caps =>
        if j = i then repeated step order fuel 0 (high.map (· - low)) last j caps rest
        else repeated step order fuel (low - 1) (high.map (· - 1)) last j caps rest
    else
      let more := fun (_ : Unit) =>
        if high = some 0 ∨ last = some i then none
        else step i caps fun j caps =>
          repeated step order fuel 0 (high.map (· - 1)) (some i) j caps rest
      match order with
      | .few => (rest i caps).orElse more
      | _ => (more ()).orElse fun _ => rest i caps

def Matcher.first (m : Matcher) (i : Nat) (caps : Captures) : Option (Nat × Captures) :=
  m i caps fun j caps => some (j, caps)

def sameFrom (c : Comparison) (text : Array Char) (i j : Nat) : Nat → Bool
  | 0 => true
  | count + 1 =>
    match text[i]?, text[j]? with
    | some x, some y =>
      (if c.ignoresCase then c.lower x.toNat == c.lower y.toNat else x == y)
        && sameFrom c text (i + 1) (j + 1) count
    | _, _ => false

/-- The least and greatest number of characters of a match, if there is a greatest; `groups` gives
them for the groups. -/
def width (groups : Nat → Nat × Option Nat) : Pattern → Nat × Option Nat
  | .nothing | .spot _ _ | .look _ _ _ => (0, some 0)
  | .one _ _ => (1, some 1)
  | .seq a b =>
    let (low, high) := a.width groups
    let (low', high') := b.width groups
    (low + low', do return (← high) + (← high'))
  | .alt a b =>
    let (low, high) := a.width groups
    let (low', high') := b.width groups
    (min low low', do return max (← high) (← high'))
  | .rep _ count limit p =>
    let (low, high) := p.width groups
    (low * count,
      if high = some 0 ∨ limit = some 0 then some 0 else do return (← high) * (← limit))
  | .group _ p | .only p => p.width groups
  | .again _ n => groups n
  | .given _ a b =>
    let (low, high) := a.width groups
    let (low', high') := b.width groups
    (min low low', do return max (← high) (← high'))

def groupWidths : Pattern → (Nat → Nat × Option Nat) → Nat → Nat × Option Nat
  | .seq a b, known | .alt a b, known | .given _ a b, known => b.groupWidths (a.groupWidths known)
  | .rep _ _ _ p, known | .only p, known | .look _ _ p, known => p.groupWidths known
  | .group n p, known =>
    let inner := p.groupWidths known
    let found := p.width inner
    fun m => if m = n then found else inner m
  | _, known => known

def matcher (groups : Nat → Nat × Option Nat) (text : Array Char) : Pattern → Matcher
  | .nothing => fun i caps rest => rest i caps
  | .one c test => fun i caps rest =>
      if text[i]?.any (c.passes · test) then rest (i + 1) caps else none
  | .seq a b => fun i caps rest =>
      matcher groups text a i caps fun j caps => matcher groups text b j caps rest
  | .alt a b => fun i caps rest =>
      (matcher groups text a i caps rest).orElse fun _ => matcher groups text b i caps rest
  | .rep order low high p => fun i caps rest =>
      let step := matcher groups text p
      let fuel := text.size - i + 3
      match order with
      | .most =>
        let atomic : Matcher := fun i caps rest => (step.first i caps).bind fun (j, caps) => rest j caps
        (Matcher.first (repeated atomic order fuel low high none) i caps).bind
          fun (j, caps) => rest j caps
      | order => repeated step order fuel low high none i caps rest
  | .group n p => fun i caps rest =>
      matcher groups text p i caps fun j caps => rest j ((n, i, j) :: caps)
  | .again c n => fun i caps rest =>
      match caps.lookup n with
      | some (first, last) =>
        if sameFrom c text first i (last - first) then rest (i + (last - first)) caps else none
      | none => none
  | .given n a b => fun i caps rest =>
      if (caps.lookup n).isSome then matcher groups text a i caps rest
      else matcher groups text b i caps rest
  | .only p => fun i caps rest =>
      (Matcher.first (matcher groups text p) i caps).bind fun (j, caps) => rest j caps
  | .spot c s => fun i caps rest => if c.isAt text i s then rest i caps else none
  | .look behind holds p => fun i caps rest =>
      let found := if behind then
          let back := (p.width groups).1
          if back ≤ i then Matcher.first (matcher groups text p) (i - back) caps else none
        else Matcher.first (matcher groups text p) i caps
      match found with
      | some (_, caps') => if holds then rest i caps' else none
      | none => if holds then none else rest i caps

def occursIn (p : Pattern) (text : Text) : Bool :=
  let places := text.toArray
  let groups := p.groupWidths fun _ => (0, some 0)
  (List.range (places.size + 1)).any fun i =>
    (Matcher.first (matcher groups places p) i []).isSome

end Pattern

end MacroExpand
