import MacroExpand.CommandLine.Arguments
import MacroExpand.Number.Double
import MacroExpand.Text.Lines
import MacroExpand.Text.Identifier

/-!
# Help

The usage lines list everything that can be given; the help text explains it.  Both are laid out for
a number of columns.
-/

set_option autoImplicit false

namespace MacroExpand

/-!
## Wrapped text

A paragraph is cut into lines of a width.  A line ends at a blank, behind the hyphen of a compound
word, or, if a word is longer than a whole line, inside it.
-/

namespace Wrapping

def isLetter (c : Char) : Bool := !c.isDigit && (c == '_' || isNameRest c)

/-- Whether a compound word may be cut here: behind two letters with a hyphen, given last first, and
in front of two more letters. -/
def isCut (before after : Text) : Bool :=
  match before with
  | '-' :: b :: a :: _ =>
    isLetter a && isLetter b &&
      match after with
      | c :: '-' :: d :: _ => isLetter c && isLetter d
      | c :: d :: _ => isLetter c && isLetter d
      | _ => false
  | _ => false

def pieces (piece : Text) : Text → List Text
  | [] => if piece.isEmpty then [] else [piece.reverse]
  | c :: rest =>
    if isCut (c :: piece) rest then (c :: piece).reverse :: pieces [] rest
    else pieces (c :: piece) rest

def words (text : Text) : List Text :=
  ((text.map fun c => if isBlank c then ' ' else c).splitOn ' ').filter (!·.isEmpty)

def chunks (text : Text) : List Text :=
  ((words text).map (pieces [])).intersperse [[' ']] |>.flatten

def fit (room : Nat) : List Text → List Text × List Text
  | [] => ([], [])
  | c :: rest =>
    if c.length ≤ room then
      let (taken, left) := fit (room - c.length) rest
      (c :: taken, left)
    else ([], c :: rest)

/-- How many characters of a word that fits on no line go on a line: up to the last hyphen, or as
many as there is room for. -/
def cutOf (room : Nat) (word : Text) : Nat :=
  let front := word.take room
  let back := (front.reverse.takeWhile (· != '-')).length
  let hyphen := front.length - back - 1
  if room < word.length ∧ back < front.length ∧ 0 < hyphen ∧ (front.take hyphen).any (· != '-')
    then hyphen + 1 else room

def fill (width : Nat) (all : List Text) : List Text × List Text :=
  let (line, rest) := fit width all
  match rest with
  | [] => (line, [])
  | word :: more =>
    if width < word.length then
      let cut := cutOf (width - (line.map List.length).sum) word
      (line ++ [word.take cut], word.drop cut :: more)
    else (line, rest)

def trimmed (line : List Text) : Text :=
  (if line.getLast? = some [' '] then line.dropLast else line).flatten

def linesOf (width : Nat) : Nat → List Text → List Text
  | 0, _ => []
  | fuel + 1, all =>
    match all with
    | [] => []
    | c :: rest =>
      let (line, left) := fill width (if c = [' '] then rest else c :: rest)
      let text := trimmed line
      if text.isEmpty then linesOf width fuel left else text :: linesOf width fuel left

end Wrapping

def Text.wrap (width : Nat) (text : Text) : List Text :=
  Wrapping.linesOf width (2 * text.length + 1) (Wrapping.chunks text)

namespace CommandLine

def blanks (n : Nat) : Text := List.replicate n ' '

/-! ## Usage -/

def usageWord : Text := chars "usage: "

def optionParts : List Text :=
  OptionSpec.all.map fun o => chars ("[" ++ o.names.headD "" ++ o.valueText ++ "]")

def sourceParts : List Text := [chars sourcesName, chars ("[" ++ sourcesName ++ " ...]")]

def usageLines (width indent : Nat) (line : List Text) (used : Nat) : List Text → List Text
  | [] => if line.isEmpty then [] else [blanks indent ++ Text.joinWith [' '] line]
  | part :: rest =>
    if width < used + 1 + part.length ∧ !line.isEmpty then
      (blanks indent ++ Text.joinWith [' '] line) ::
        usageLines width indent [part] (indent + part.length) rest
    else usageLines width indent (line ++ [part]) (used + part.length + 1) rest

def usageBlock (width indent : Nat) (parts : List Text) : List Text :=
  usageLines width indent [] (indent - 1) parts

/-- The usage of a program, without the line feed at its end.  A program with a short name is
followed by its options; one with a long name stands on a line of its own. -/
def usage (width : Nat) (program : Text) : Text :=
  let whole := Text.joinWith [' '] (program :: (optionParts ++ sourceParts))
  let front := usageWord.length + program.length
  let lines :=
    if usageWord.length + whole.length ≤ width then [whole]
    else if 4 * front ≤ 3 * width then
      let indent := front + 1
      let first := usageLines width indent [] (usageWord.length - 1) (program :: optionParts)
      (match first with
        | [] => []
        | line :: rest => line.drop indent :: rest) ++ usageBlock width indent sourceParts
    else
      let indent := usageWord.length
      let together := usageBlock width indent (optionParts ++ sourceParts)
      program :: if 1 < together.length then
          usageBlock width indent optionParts ++ usageBlock width indent sourceParts
        else together
  usageWord ++ Text.joinWith ['\n'] lines

/-! ## Help -/

def narrowest : Nat := 11

def helpColumn (width : Nat) : Nat := min 24 (max (width - 20) 4)

def entryLines (width : Nat) (heading help : Text) : List Text :=
  let column := helpColumn width
  let lines := help.wrap (max (width - column) narrowest)
  let others := (lines.drop 1).map (blanks column ++ ·)
  if heading.length + 4 ≤ column then
    (blanks 2 ++ heading ++ blanks (column - 2 - heading.length) ++ lines.headD []) :: others
  else (blanks 2 ++ heading) :: (blanks column ++ lines.headD []) :: others

def optionHeading (o : OptionSpec) : Text :=
  chars (", ".intercalate (o.names.map (· ++ o.valueText)))

def helpText (width : Nat) (program : Text) : Text :=
  let lines := [usage width program, []] ++
    (chars description).wrap (max width narrowest) ++
    [[], chars "positional arguments:"] ++
    entryLines width (chars sourcesName) (chars sourcesHelp) ++
    [[], chars "options:"] ++
    OptionSpec.all.flatMap fun o => entryLines width (optionHeading o) (chars o.help)
  lines.flatMap (· ++ ['\n'])

def versionText (width : Nat) (version : Text) : Text :=
  Text.joinWith ['\n'] (version.wrap (max width narrowest)) ++ ['\n']

end CommandLine

end MacroExpand
