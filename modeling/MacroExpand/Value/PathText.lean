import MacroExpand.Text.Lines

/-!
# Paths

A path is a drive, a root and a list of parts.  Empty parts and single dots are dropped when a path
is read; a path with no parts at all is written as a dot.
-/

set_option autoImplicit false

namespace MacroExpand

/-- Which separators and drives a path knows. -/
inductive PathFlavour where
  | posix
  | windows
  deriving DecidableEq, Repr, Inhabited

/-- A path. -/
structure PathText where
  flavour : PathFlavour
  drive : Text
  root : Text
  parts : List Text
  deriving DecidableEq, Repr, Inhabited

namespace PathText

def partsOf (text : Text) : List Text :=
  (text.splitOn '/').filter fun part => part != [] && part != ['.']

/-- Read a path with slashes.  Exactly two slashes in front are a root of their own. -/
def posix (text : Text) : PathText :=
  let slashes := (text.takeWhile (· == '/')).length
  let root := if slashes = 0 then [] else if slashes = 2 then ['/', '/'] else ['/']
  ⟨.posix, [], root, partsOf (text.drop slashes)⟩

/-- Take the mark of an extended path off the front; behind one that names a share, the rest begins
with two backslashes again. -/
def splitExtended (text : Text) : Text × Text :=
  let mark := chars "\\\\?\\"
  if mark.isPrefixOf text then
    let rest := text.drop 4
    if (chars "UNC\\").isPrefixOf rest then (mark ++ chars "UNC", '\\' :: rest.drop 3)
    else (mark, rest)
  else ([], text)

/-- The drive, the root and the rest of a path with backslashes.  A drive is a letter with a colon, or
a host with a share. -/
def splitRoot (text : Text) : Text × Text × Text :=
  let isSlash := fun (c : Char) => c == '\\'
  let (mark, rest) := splitExtended text
  let plain :=
    let (drive, rest) : Text × Text := match rest with
      | c :: ':' :: more => if c.isAlpha then ([c, ':'], more) else ([], rest)
      | rest => ([], rest)
    match rest with
    | '\\' :: more => (mark ++ drive, ['\\'], more.dropWhile isSlash)
    | rest => (mark ++ drive, [], rest)
  match rest with
  | '\\' :: '\\' :: more =>
    let host := more.takeWhile (!isSlash ·)
    match more.dropWhile (!isSlash ·) with
    | _ :: tail =>
      if host.isEmpty || tail.head? == some '\\' then plain
      else
        let share := tail.takeWhile (!isSlash ·)
        let slashes := if mark.isEmpty then ['\\', '\\'] else ['\\']
        (mark ++ slashes ++ host ++ '\\' :: share, ['\\'],
          (tail.dropWhile (!isSlash ·)).drop 1)
    | [] => plain
  | _ => plain

def windows (text : Text) : PathText :=
  let (drive, root, rest) := splitRoot (text.map fun c => if c == '/' then '\\' else c)
  ⟨.windows, drive, root, (rest.splitOn '\\').filter fun part => part != [] && part != ['.']⟩

def ofText (flavour : PathFlavour) (text : Text) : PathText :=
  match flavour with
  | .posix => posix text
  | .windows => windows text

def separator (flavour : PathFlavour) : Char :=
  match flavour with
  | .posix => '/'
  | .windows => '\\'

def text (p : PathText) : Text :=
  let body := p.drive ++ p.root ++ Text.joinWith [separator p.flavour] p.parts
  if body.isEmpty then ['.'] else body

def isAbsolute (p : PathText) : Bool :=
  match p.flavour with
  | .posix => !p.root.isEmpty
  | .windows => !p.root.isEmpty && !p.drive.isEmpty

def join (a b : PathText) : PathText :=
  match a.flavour with
  | .posix => if b.root.isEmpty then { a with parts := a.parts ++ b.parts } else b
  | .windows =>
    if !b.drive.isEmpty && b.drive.map Char.toLower != a.drive.map Char.toLower then b
    else if !b.root.isEmpty then { b with drive := if b.drive.isEmpty then a.drive else b.drive }
    else { a with parts := a.parts ++ b.parts }

def name (p : PathText) : Text := p.parts.getLast?.getD []

def dotOf (name : Text) : Option Nat :=
  match name.reverse.findIdx? (· == '.') with
  | none => none
  | some back =>
    let place := name.length - 1 - back
    if 0 < place ∧ 0 < back then some place else none

def suffix (p : PathText) : Text :=
  match dotOf p.name with
  | some place => p.name.drop place
  | none => []

def stem (p : PathText) : Text :=
  match dotOf p.name with
  | some place => p.name.take place
  | none => p.name

def parent (p : PathText) : PathText := { p with parts := p.parts.dropLast }

def resolveParts (done : List Text) : List Text → List Text
  | [] => done.reverse
  | part :: rest =>
    if part = ['.', '.'] then resolveParts (done.drop 1) rest else resolveParts (part :: done) rest

def resolve (directory p : PathText) : PathText :=
  let full := directory.join p
  { full with root := ['/'], parts := resolveParts [] full.parts }

def relativeTo (p directory : PathText) : Option PathText :=
  if directory.root = p.root ∧ directory.parts.isPrefixOf p.parts then
    some ⟨p.flavour, [], [], p.parts.drop directory.parts.length⟩
  else none

end PathText

end MacroExpand
