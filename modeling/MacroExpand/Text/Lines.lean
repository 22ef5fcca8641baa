/-!
# Lines and positions of a text

A text is a list of characters.  It is cut into lines at LF, CR and CRLF, and every line keeps its
terminator, so the lines put together again are the text.  Syntax trees count columns in UTF-8
bytes, edits count them in characters, and splicing counts characters from the start of the text;
`charsBefore` and `lineStarts` are the only passages between the three.
-/

set_option autoImplicit false

namespace MacroExpand

/-- A piece of source text. -/
abbrev Text := List Char

/-- A place in a text: a line counted from one, and a column counted in characters from zero. -/
structure Position where
  line : Nat
  column : Nat
  deriving DecidableEq, Repr, Inhabited

/-- Where an edit begins or ends.  Lines below one count back from the end of the text, and columns
below zero from the start of the line. -/
structure Anchor where
  line : Int
  column : Int
  deriving DecidableEq, Repr, Inhabited

instance : Coe Position Anchor := ⟨fun p => ⟨p.line, p.column⟩⟩

/-- A stretch of text between two places. -/
structure Span where
  start : Position
  stop : Position
  deriving DecidableEq, Repr, Inhabited

namespace Text

/-- Cut a text after each terminator; `line` holds the characters of the current line, last first. -/
def splitFrom (line : Text) : Text → List Text
  | [] => if line.isEmpty then [] else [line.reverse]
  | '\r' :: '\n' :: rest => ('\n' :: '\r' :: line).reverse :: splitFrom [] rest
  | c :: rest =>
    if c = '\n' ∨ c = '\r' then (c :: line).reverse :: splitFrom [] rest
    else splitFrom (c :: line) rest

/-- The lines of a text, each with its terminator. -/
def lines (text : Text) : List Text := splitFrom [] text

def splitFeeds (line : Text) : Text → List Text
  | [] => if line.isEmpty then [] else [line.reverse]
  | c :: rest =>
    if c = '\n' then (c :: line).reverse :: splitFeeds [] rest
    else splitFeeds (c :: line) rest

def byteLength (text : Text) : Nat := text.foldl (fun n c => n + c.utf8Size) 0

/-- How many characters of a line begin before the given byte; a character that the byte falls into
counts. -/
def charsBefore : Text → Nat → Nat
  | [], _ => 0
  | _ :: _, 0 => 0
  | c :: rest, byte + 1 => 1 + charsBefore rest (byte + 1 - c.utf8Size)

/-- The character column of a byte column, where a negative byte column counts from the end. -/
def charColumn (line : Text) (byte : Int) : Nat :=
  charsBefore line (if byte < 0 then byteLength line + byte else byte).toNat

def startsFrom (offset : Nat) : List Text → List Nat
  | [] => [offset]
  | line :: rest => offset :: startsFrom (offset + line.length) rest

/-- Where each line begins, in characters from the start; the last entry is the end of the text. -/
def lineStarts (text : Text) : List Nat := startsFrom 0 text.lines

def indexIn (length : Nat) (index : Int) : Option Nat :=
  let index := if index < 0 then index + length else index
  if 0 ≤ index ∧ index < length then some index.toNat else none

def offsetIn (starts : List Nat) (place : Anchor) : Option Int :=
  match indexIn starts.length (place.line - 1) with
  | some k => (starts[k]?).map fun (start : Nat) => (start : Int) + place.column
  | none => none

def clip (length : Nat) (offset : Int) : Nat :=
  (if offset < 0 then offset + length else offset).toNat

def slice (text : Text) (start stop : Int) : Text :=
  let start := clip text.length start
  (text.drop start).take (clip text.length stop - start)

def dropTerminator (line : Text) : Text :=
  (line.reverse.dropWhile fun c => c == '\r' || c == '\n').reverse

/-- How many line feeds a text holds. -/
def countFeeds (text : Text) : Nat := text.count '\n'

end Text

/-!
## Blank characters

The characters that trimming removes: the Unicode characters of class `White_Space`, and the four
information separators.
-/

def isBlank (c : Char) : Bool :=
  let n := c.toNat
  (9 ≤ n && n ≤ 13) || (28 ≤ n && n ≤ 32) || n == 0x85 || n == 0xA0 || n == 0x1680 ||
    (0x2000 ≤ n && n ≤ 0x200A) || n == 0x2028 || n == 0x2029 || n == 0x202F || n == 0x205F ||
    n == 0x3000

namespace Text

def trimLeft (text : Text) : Text := text.dropWhile isBlank

def trimRight (text : Text) : Text := (text.reverse.dropWhile isBlank).reverse

def trim (text : Text) : Text := text.trimLeft.trimRight

def startsWith (text front : Text) : Bool := front.isPrefixOf text

def endsWith (text back : Text) : Bool := back.isSuffixOf text

def splitOnChar (mark : Char) (text : Text) : List Text := text.splitOn mark

def joinWith (between : Text) (parts : List Text) : Text := between.intercalate parts

def containsText : Text → Text → Bool
  | [], part => part.isEmpty
  | c :: rest, part => part.isPrefixOf (c :: rest) || containsText rest part

end Text

/-- The characters of a string literal. -/
@[inline, reducible]
def chars (s : String) : Text := s.toList

/-- Rewriting a literal with this is cheaper than to let the kernel decode the bytes of its characters. -/
theorem chars_ofList (text : Text) : chars (String.ofList text) = text := String.toList_ofList

theorem chars_append (a b : Text) : chars (String.ofList a ++ String.ofList b) = a ++ b := by
  simp only [chars, String.toList_append, String.toList_ofList]

end MacroExpand
