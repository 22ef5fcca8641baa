import MacroExpand.Data.Inflate
import MacroExpand.Text.Quoted
import Std.Data.HashMap

/-!
# Tables of code points

A long table is written as one text: semicolons divide its rows, and blanks in front of a row do not
count.  A row of code points names one, or the first of a run and the length of the run behind a plus
sign; a row that names none goes on behind the row in front of it.  A mark and hexadecimal numbers,
divided by blanks, say what the row maps to.  The longest tables are deflated and written in base 85.
-/

set_option autoImplicit false

namespace MacroExpand

def hexValue (c : Char) : Option Nat :=
  if '0' ≤ c ∧ c ≤ '9' then some (c.toNat - 48)
  else if 'a' ≤ c ∧ c ≤ 'f' then some (c.toNat - 87)
  else if 'A' ≤ c ∧ c ≤ 'F' then some (c.toNat - 55)
  else none

def hexNumber (digits : Text) : Option Nat :=
  digits.foldl (fun n c => do return (← n) * 16 + (← hexValue c)) (some 0)

structure CodeRow where
  first : Nat
  count : Nat
  mark : Char
  targets : List Nat
  deriving DecidableEq, Repr, Inhabited

namespace CodeRow

/-- Read a row, given the code point behind those of the row in front of it; digits that are none count as zero. -/
def ofText (next : Nat) (row : Text) : CodeRow :=
  let isHex := fun c => (hexValue c).isSome
  let number := fun (digits : Text) => (hexNumber digits).getD 0
  let digits := row.takeWhile isHex
  let first := if digits.isEmpty then next else number digits
  let rest := row.dropWhile isHex
  let (count, rest) : Nat × Text := match rest with
    | '+' :: more => (number (more.takeWhile isHex), more.dropWhile isHex)
    | rest => (1, rest)
  { first, count
    mark := rest.headD ' '
    targets := if rest.length ≤ 1 then [] else (rest.drop 1).splitOn ' ' |>.map number }

def members (row : CodeRow) : List (Nat × Nat) :=
  (List.range row.count).map fun k => (row.first + k, k)

end CodeRow

def tableRows (data : String) : List Text :=
  (data.toList.splitOn ';').map fun row => row.dropWhile Char.isWhitespace

/-- The digit that a character stands for in base 85: characters in order, without those that mean something in texts. -/
def packedDigit (c : Char) : Nat :=
  c.toNat - 33 - (chars "\"#'-/\\`\x7b\x7d").countP (· < c)

/-- Four bytes are written with five digits. -/
def packedBytes : Text → List UInt8
  | a :: b :: c :: d :: e :: rest =>
    let n := [a, b, c, d, e].foldl (fun n digit => n * 85 + packedDigit digit) 0
    UInt8.ofNat (n / 16777216) :: UInt8.ofNat (n / 65536) :: UInt8.ofNat (n / 256) :: UInt8.ofNat n :: packedBytes rest
  | _ => []

/-- A table from the text of it that is deflated and written in base 85. -/
def inflatedTable (data : String) : String :=
  match inflate .bare (packedBytes (data.toList.filter fun c => !c.isWhitespace)) with
  | .ok bytes => String.ofList (bytes.map fun byte => Char.ofNat byte.toNat)
  | .error _ => ""

def codeRowsFrom (next : Nat) : List Text → List CodeRow
  | [] => []
  | text :: rest =>
    let row := CodeRow.ofText next text
    row :: codeRowsFrom (row.first + row.count) rest

def codeRows (data : String) : List CodeRow := codeRowsFrom 0 (tableRows data)

def runsFrom (next : Nat) : List CodeRow → List (Nat × Nat)
  | [] => []
  | row :: rest =>
    let first := next + row.first
    (first, first + row.count - 1) :: runsFrom (first + row.count) rest

/-- Runs of code points from rows that say how many lie in front of each, behind the run in front of it. -/
def codeRuns (data : String) : Array (Nat × Nat) := (runsFrom 0 (codeRows data)).toArray

def runIndex (runs : Array (Nat × Nat)) (n : Nat) : Nat → Nat → Nat → Nat
  | 0, low, _ => low
  | fuel + 1, low, high =>
    if low + 1 < high then
      let middle := (low + high) / 2
      if (runs[middle]?.getD (0, 0)).1 ≤ n then runIndex runs n fuel middle high
      else runIndex runs n fuel low middle
    else low

def inRuns (runs : Array (Nat × Nat)) (n : Nat) : Bool :=
  match runs[runIndex runs n 32 0 runs.size]? with
  | some (first, last) => first ≤ n && n ≤ last
  | none => false

end MacroExpand
