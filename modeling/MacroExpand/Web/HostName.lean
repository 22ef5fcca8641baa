import MacroExpand.Text.CodeTable
import MacroExpand.Text.Lines
import MacroExpand.Text.Case
import MacroExpand.Text.Normalization

/-!
# Names of hosts

A host name is checked character by character, and is sent in plain letters.
-/

set_option autoImplicit false

namespace MacroExpand

/-!
## Characters of host names

The properties of characters that decide where they may stand in a host name: direction, joining
and script.
-/

namespace HostName

def marks : Array (Nat × Nat) := codeRuns
  "300+40;2;3+9;1+20;113+5;109+2d;1;1+2;1+2;1;48+b;30+15;10;65+7;2+6;2+2;1+4;23;1e+1b;5b+b;3a+9;9;18+4;1+9;1+3;1+5;
   2b+3;3c+8;2a+18;1+20;37;1;4+8;4;3+7;a+2;1d;3a;4+4;8;14+2;1a;2+2;39;4+2;4+2;2+3;3;1e+2;3;b+2;39;4+5;1+2;4;14+2;16+6;
   1;3a;2;1+4;8;7+2;b+2;1e;3d;c;32;3;37;1+3;5+3;1+4;7+2;b+2;1d;3a;f+2;14+2;1c+2;39+2;4+4;8;14+2;1d;48;7+3;1;5a;2+7;
   c+8;62;2+9;b+6;4a+2;1b;1;1;37+2;1;5+5;1;1+3;1+2;5+6;1+4;1+4;1+4;1+4;1+4;1+c;1+3;9;66+4;1+6;1+2;2+2;19+2;4+3;10+4;d;
   2+2;6;f;2bf+3;3b2+3;1d+2;1e+2;1e+2;43+7;8;2+b;9;a7+2;22;76+3;4+2;9;6+3;db+2;2;3a;1+7;1;1;2+8;6+a;2;30+e;1+10;31+4;
   30;1+5;1;5;28+9;c+2;20+4;2+2;1+3;38;1+2;3;1+3;3a+8;2+2;98+3;1+d;1+7;4;6;3+2;c6+40;eef+3;8d;60+20;22a+4;6b+2;75d4;
   4+a;20+2;50+2;110;3;4;19+2;5;97+2;1a+12;d;26+8;19+b;2e+3;30;2+4;2+2;27;43+6;2+2;2+2;c;8;2f;33;1+3;2+2;5+2;1;2a+2;8;
   ee;2;4;4f30;301+10;3cd;e2;95+5;686+3;1+2;5+4;28+3;4;a5+2;23d+4;183+2;99+b;31+4;7b;36+f;29;2+2;a+3;31+4;2+2;7;3d+3;
   24+5;1+8;3e;c+2;34+9;a+4;2;5f+3;2;1+2;6;a0;3+8;15+2;39+2;3;25+7;3+5;c3+8;2+3;1;17;54+6;1;4+2;1+2;ee+4;6+2;1+2;1b+2;
   55+8;2;1+2;6a;1;2+6;1;65+3;2+4;1+5;103+9;1+2;100+2;1;4;90+4;2+2;4;20+6;2+2;28+6;2+4;8;9+6;2+3;2e+d;1+2;196+7;1+6;
   54+16;2+7;1+2;1+2;7a+6;3;1+2;1+7;1;48+2;3;1;15b+2;4bfb+5;3b+7;418;3f+4;51;4cb8+2;1261+2e;2+17;ab9+37;4+32;8;e;16+5;
   1+f;550+7;1+11;2+7;1+2;1+5;105+7;177;3d+4;5e0+7;6d+7"

def spacingMarks : Array (Nat × Nat) := codeRuns
  "903;37;2+3;8+4;1+2;32+2;3a+3;6+2;2+2;a;2b;3a+3;42;3a+3;8;1+2;35+2;3a;1;6+2;2+2;a;66+2;1+2;3+3;1+3;a;29+3;3d+4;3d+2;
   3a+7;1+3;1+2;9+2;2b+2;3a+3;5+3;1+3;a;2a+2;4b+3;6+8;12+2;14a+2;3f;ab+2;4;6;2+2;19+2;a+3;2+7;15+2;2+6;2;a+3;678;1e;
   81;7+8;1+2;15a+4;2+3;4+2;1+6;e0+2;3a;1;9;1+2;8+6;91;30;5;1+5;1+2;3d;1e;4+2;2;3c;2+3;1;3+2;30+8;8+2;ab;15;8b2b+2;2;
   58+2;32+10;8e+2;2f;30+2;4+2;2+3;6e+2;2+2;18;2d;1;6d;2+2;5;ed+2;1+2;1+2;1;6413;1;7f;2d+3;4+2;73;18+2;3b;30+3;9+2;d;
   5d+3;3+2;1;aa+3;1f+2;3a+2;1+4;2+2;2+3;9;a+2;d1+3;8+2;3;6a+3;6;1+4;2;ed+3;6+4;2;71+3;8+2;1;6d;1+2;6;69+2;4;105+3;9;
   f7+6;1+2;4;2;1;8e+3;8+4;4;22+2;30;1d+2;3e;197;e+2;69;7;2;d5+5;4+2;1;15e+2;505a+37;68+2"

def rightToLeft : Array (Nat × Nat) := codeRuns
  "5d0+1b;4+6;1cb+2b;9+2;a+16;4;9;3;17+19;ffa7+6;2;1+2c;1+2;3;2+17;a+17;9+1f;41+13;1+2;a+16;a+1a;46+38;6+2;40;f+4;1+3;
   1+1d;2a+1d;3+1d;23+8;1+1c;1b+36;a+16;a+13;d+12;6e+49;77+33;18d+2a;6+2;4e+1d;a;48+12;2e+15;1b+17;d809+c5;5d+22;7;4+a"

def arabicLetters : Array (Nat × Nat) := codeRuns
  "620+20;1+a;23+2;1+4;4+5b;1;f+2;7+2;a+6;10;1+1e;1d+59;b;ae+b;5+18;1+6;11+2a;f5a9;e8c+24;20c+16"

def neutral : Array (Nat × Nat) := codeRuns
  "b7;201+2;b+a;1c;88;2ab9;2cb;7583;97+9;68"

def joinsBoth : Array (Nat × Nat) := codeRuns
  "620;5;1;1+5;4+d;1+7;1+2;23+2;9+f;12+26;1+2;9;1;1+2;28+3;2;12+3;5+4;1+9;1;1;1+2;1f+b;3+f;2+4;1;2+3;2+6;4a+21;56+5;2;
   1+a;1;a;1+4;2;1d;2+5;12+a;5+2;2+6;1+f;f57+59;e+22;1;8f95+32;624e+5;e+4;1+5;1+3;9f;1;3+3;1+2;1;2;170+21;1;20c+3;
   1+11;2b+4;2+c;2e;1+2;4;2+2;1+2;1;2;d95d+22"

def joinsFormer : Array (Nat × Nat) := codeRuns
  "622+4;1;1;5+4;15;28+3;14+12;26;2+9;1;1;2+2;1;18+2;20;4+5;4;9;1;1;2;1d;b+3;f+2;4;1+2;3+2;c6;5+2;1;a;1+3;e;1+2;5+13;
   b;1b+3;1;2+2;6;1020b;1;1+2;3+5;a;3;2;9c;1+3;3;2;1+2;1;190;210;40+2;3e+3;2+2;2;4+2"

def joinsLatter : Array (Nat × Nat) := codeRuns
  "a872;625a;9;228"

def greek : Array (Nat × Nat) := codeRuns
  "371;1;1;1;3+3;12;1b+23;8;1;1;1;1;1;11;4;2+2;1929+5;1d5+8;8+6;a+8;8+8;8+6;a+8;8+8;8;1;1;1;1;1;1;33+2;4;f;9+3;3+2;
   8+3;1+4;e;8b6e"

def hebrew : Array (Nat × Nat) := codeRuns
  "591+2d;1;1+2;1+2;1;8+1b;4+6;f529"

def hiragana : Array (Nat × Nat) := codeRuns
  "3041+56;6+2;17f62+11f;30+3"

def katakana : Array (Nat × Nat) := codeRuns
  "30a1+5a;2+2;f1+10;17df0+4;1+7;1+2;1;11f+3;41+4"

def han : Array (Nat × Nat) := codeRuns
  "3005;1;3f8+19c0;40+5200;5a0e+2;1;1+2;a;1;1+2;2+3;75b9;c+2;900e+a6e0;20+1039;7+de;2+1682;e+1d31;141f+134b"

def excluded : Array (Nat × Nat) := codeRuns
  "34f;2f0;1b9;905+100;5b4+2;55+3;1;8c0+d;4;3+c;f3d+2;1+5;5;7924+1d;2e33+17;4+31;2604+10;d355+5;3+6;8+8;2+7;1e+4;94+3;
   c2ebb+f0"

def included : Array (Nat × Nat) := codeRuns
  "2d;b1;2e2;33a+2;80c;20fb"

end HostName

/-!
## Names in plain letters

A name with characters beyond ASCII is written in plain letters and digits: first its ASCII
characters, then, behind a hyphen, numbers that say which characters stand between them and where.
A number is a run of digits to base 36 whose last digit lies below a bound that depends on its
place.
-/

namespace Punycode

def bound (bias place : Nat) : Nat :=
  let k := 36 * (place + 1)
  if k ≤ bias then 1 else if bias + 26 ≤ k then 26 else k - bias

def adapt (delta : Nat) (isFirst : Bool) (count : Nat) : Nat :=
  let delta := if isFirst then delta / 700 else delta / 2
  go 0 (delta + delta / count) 64
where
  go (k delta : Nat) : Nat → Nat
    | 0 => k
    | fuel + 1 => if 455 < delta then go (k + 36) (delta / 35) fuel else k + 36 * delta / (delta + 38)

def digit (n : Nat) : Char := Char.ofNat (if n < 26 then 97 + n else 22 + n)

def number (bias : Nat) : Nat → Nat → Nat → Text
  | 0, _, _ => []
  | fuel + 1, place, n =>
    let t := bound bias place
    if n < t then [digit n]
    else digit (t + (n - t) % (36 - t)) :: number bias fuel (place + 1) ((n - t) / (36 - t))

/-- The gaps between the insertions of the characters beyond ASCII, in the order of the characters;
`last` is the character inserted before and `gap` what is left over from it. -/
def gaps (name : List Nat) : List Nat → Nat → Nat → List Nat
  | [], _, _ => []
  | c :: rest, last, gap =>
    let below := (name.filter (· < c)).length
    let gap := gap + (c - last) * (below + 1)
    let (found, left) := walk c 0 gap name
    found ++ gaps name rest (c + 1) (left + 1)
where
  walk (c : Nat) (step gap : Nat) : List Nat → List Nat × Nat
    | [] => ([], gap + step)
    | x :: xs =>
      if x < c then walk c (step + 1) gap xs
      else if x = c then
        let (found, left) := walk c 0 0 xs
        ((gap + step) :: found, left)
      else walk c step gap xs

def writeGaps (written : Nat) (bias : Nat) (isFirst : Bool) : List Nat → Text
  | [] => []
  | gap :: rest =>
    number bias 64 0 gap ++ writeGaps (written + 1) (adapt gap isFirst (written + 1)) false rest

def encode (name : Text) : Text :=
  let plain := name.filter (·.toNat < 128)
  let codes := name.map Char.toNat
  let beyond := ((codes.filter (128 ≤ ·)).mergeSort (· ≤ ·)).eraseDups
  plain ++ (if plain.isEmpty then [] else ['-']) ++
    writeGaps plain.length 72 true (gaps codes beyond 128 0)

def digitValue? (c : Char) : Option Nat :=
  if 'a' ≤ c ∧ c ≤ 'z' then some (c.toNat - 97)
  else if 'A' ≤ c ∧ c ≤ 'Z' then some (c.toNat - 65)
  else if c.isDigit then some (c.toNat - 22)
  else none

def readNumber (bias : Nat) (place weight sum : Nat) : Text → Option (Nat × Text)
  | [] => none
  | c :: rest =>
    match digitValue? c with
    | none => none
    | some d =>
      let t := bound bias place
      let sum := sum + d * weight
      if d < t then some (sum, rest) else readNumber bias (place + 1) (weight * (36 - t)) sum rest

def insertAll : Nat → Nat → Nat → Nat → Bool → Text → Text → Option Text
  | 0, _, _, _, _, done, _ => some done
  | fuel + 1, code, place, bias, isFirst, done, text =>
    if text.isEmpty then some done
    else match readNumber bias 0 1 0 text with
      | none => none
      | some (gap, rest) =>
        let size := done.length + 1
        let total := place + gap
        let code := code + total / size
        let place := total % size
        if h : code.isValidChar then
          insertAll fuel code (place + 1) (adapt gap isFirst size) false
            (done.take place ++ Char.ofNatAux code h :: done.drop place) rest
        else none

def decode (text : Text) : Option Text :=
  let back := text.reverse
  let (plain, rest) := if text.contains '-' then
      (((back.dropWhile (· != '-')).drop 1).reverse, (back.takeWhile (· != '-')).reverse)
    else ([], text)
  insertAll (rest.length + 1) 128 0 72 true plain rest

end Punycode

/-!
## Host names

A host name is a row of labels with dots between them.  A label holds letters, digits and marks in
their composed form and without upper case; some characters may stand only beside others, and a
label that is written from right to left follows rules of its own.  A label with characters beyond
ASCII is sent in plain letters behind `xn--`.
-/

namespace HostName

/-! ### Characters -/

def isMark (c : Char) : Bool := inRuns marks c.toNat || inRuns spacingMarks c.toNat

def isStable (c : Char) : Bool :=
  (((Text.composed true [c]).folded).composed true) == [c]

def isFree (c : Char) : Bool :=
  inRuns included c.toNat ||
    ((isLetter c || isDecimal c || isMark c) && !inRuns excluded c.toNat && isStable c)

/-- How a character is written. -/
inductive Direction where
  | leftToRight
  | rightToLeft
  | arabicLetter
  | arabicNumber
  | number
  /-- Marks that follow the character in front of them. -/
  | mark
  | other
  deriving DecidableEq, Repr, Inhabited

def direction (c : Char) : Direction :=
  let n := c.toNat
  if c.isDigit ∨ (0x6f0 ≤ n ∧ n ≤ 0x6f9) then .number
  else if (0x660 ≤ n ∧ n ≤ 0x669) ∨ (0x10d30 ≤ n ∧ n ≤ 0x10d39) then .arabicNumber
  else if n = 0x2d ∨ n = 0x200c ∨ n = 0x200d ∨ inRuns neutral n then .other
  else if inRuns marks n then .mark
  else if inRuns rightToLeft n then .rightToLeft
  else if inRuns arabicLetters n then .arabicLetter
  else .leftToRight

/-! ### Characters that depend on others -/

def isTransparent (c : Char) : Bool :=
  let n := c.toNat
  [0xcbf, 0xcc6, 0x11a07, 0x11a08, 0x11c3f, 0x1e94b].contains n || (n != 0x1171e && inRuns marks n)

def joins (oneSide : Array (Nat × Nat)) (letters : Text) : Bool :=
  (letters.dropWhile isTransparent).head?.any fun c =>
    inRuns joinsBoth c.toNat || inRuns oneSide c.toNat

def isVirama (c : Char) : Bool := Normalization.combiningClass c.toNat == 9

/-- Whether a character depends on others, and if so, whether it may stand between these: the
characters in front of it, the nearest first, and those behind it. -/
def allowedBetween? (before : Text) (c : Char) (after : Text) : Option Bool :=
  let all := before ++ after
  let within := fun (low high : Nat) (x : Char) => low ≤ x.toNat && x.toNat ≤ high
  let next := fun (side : Text) (runs : Array (Nat × Nat)) => side.head?.any fun x => inRuns runs x.toNat
  match c.toNat with
  | 0x200c => some (before.head?.any isVirama || (joins joinsLatter before && joins joinsFormer after))
  | 0x200d => some (before.head?.any isVirama)
  | 0xb7 => some (before.head? == some 'l' && after.head? == some 'l')
  | 0x375 => some (next after greek)
  | 0x5f3 | 0x5f4 => some (next before hebrew)
  | 0x30fb => some (all.any fun x => x != c &&
      (inRuns hiragana x.toNat || inRuns katakana x.toNat || inRuns han x.toNat))
  | _ =>
    if within 0x660 0x669 c then some (!all.any (within 0x6f0 0x6f9))
    else if within 0x6f0 0x6f9 c then some (!all.any (within 0x660 0x669))
    else none

/-- Whether every character of a label may stand where it does; `before` holds those in front, the
nearest first. -/
def allAllowed (before : Text) : Text → Bool
  | [] => true
  | c :: rest =>
    ((allowedBetween? before c rest).getD (isFree c)) && allAllowed (c :: before) rest

/-! ### Direction -/

def isDirected (label : Text) : Bool :=
  let ds := label.map direction
  let isRight := fun d => d == .rightToLeft || d == .arabicLetter
  if !ds.any fun d => isRight d || d == .arabicNumber then true
  else
    let last := (ds.reverse.dropWhile (· == .mark)).headD .mark
    match ds.head? with
    | some .leftToRight =>
      ds.all (fun d => !isRight d && d != .arabicNumber) && (last == .leftToRight || last == .number)
    | some d =>
      isRight d && ds.all (· != .leftToRight) &&
        (isRight last || last == .number || last == .arabicNumber) &&
        !(ds.contains .number && ds.contains .arabicNumber)
    | none => true

/-! ### Labels -/

def isLabel (label : Text) : Bool :=
  !label.isEmpty && label.length ≤ 254 && label.composed false == label &&
    (label.drop 2).take 2 != ['-', '-'] && label.head? != some '-' && label.getLast? != some '-' &&
    !label.head?.any isMark && allAllowed [] label && isDirected label

def plainMark : Text := chars "xn--"

def isPlainLabel (label : Text) : Bool :=
  if plainMark.isPrefixOf label then
    let body := label.drop plainMark.length
    !body.isEmpty && body.getLast? != some '-' && (Punycode.decode body).any isLabel
  else isLabel label

def plainLabel? (label : Text) : Option Text :=
  let found := if label.isAscii then (if isPlainLabel label then some label else none)
    else if isLabel label then some (plainMark ++ Punycode.encode label)
    else none
  found.filter fun l => l.length ≤ 63

def isDot (c : Char) : Bool := c == '.' || [0x3002, 0xff0e, 0xff61].contains c.toNat

def plain? (name : Text) : Option Text := do
  guard (name.length ≤ 254)
  let labels := (name.map fun c => if isDot c then '.' else c).splitOn '.'
  guard (labels != [[]])
  let isEnded := labels.getLast? == some []
  let labels ← (if isEnded then labels.dropLast else labels).mapM plainLabel?
  let whole := Text.joinWith ['.'] (labels ++ if isEnded then [[]] else [])
  guard (whole.length ≤ if isEnded then 254 else 253)
  return whole

def shownLabel? (label : Text) : Option Text :=
  if !label.isAscii then (if isLabel label then some label else none)
  else
    let label := label.map Char.toLower
    if plainMark.isPrefixOf label then
      let body := label.drop plainMark.length
      if body.isEmpty || body.getLast? == some '-' then none
      else (Punycode.decode body).filter isLabel
    else if isLabel label then some label else none

def shown? (name : Text) : Option Text := do
  guard (name.length ≤ 254)
  let labels := (name.map fun c => if isDot c then '.' else c).splitOn '.'
  guard (labels != [[]])
  let isEnded := labels.getLast? == some []
  let labels ← (if isEnded then labels.dropLast else labels).mapM shownLabel?
  return Text.joinWith ['.'] (labels ++ if isEnded then [[]] else [])

end HostName

end MacroExpand
