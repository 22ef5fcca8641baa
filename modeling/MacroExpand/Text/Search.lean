import MacroExpand.Text.Lines

/-!
# Searching

Parts of sequences are found as they are, names by patterns.
-/

set_option autoImplicit false

namespace MacroExpand

/-!
## Parts of sequences

Finding, replacing and cutting at a part of a sequence.  A part is found at the first place where
the sequence goes on with it, and found parts do not overlap.
-/

namespace Search

variable {α : Type} [BEq α]

def firstFrom (part : List α) (place : Nat) : List α → Option Nat
  | [] => if part.isEmpty then some place else none
  | x :: rest => if part.isPrefixOf (x :: rest) then some place else firstFrom part (place + 1) rest

def first (part items : List α) : Option Nat := firstFrom part 0 items

def last (part items : List α) : Option Nat :=
  (first part.reverse items.reverse).map fun k => items.length - k - part.length

def cut (part : List α) : Nat → Nat → List α → List (List α)
  | 0, _, items => [items]
  | _ + 1, 0, items => [items]
  | fuel + 1, count + 1, items =>
    match first part items with
    | none => [items]
    | some k => items.take k :: cut part fuel count (items.drop (k + part.length))

def split (part items : List α) (limit : Option Nat) : List (List α) :=
  cut part (items.length + 1) (limit.getD (items.length + 1)) items

def splitBack (part items : List α) (limit : Option Nat) : List (List α) :=
  (split part.reverse items.reverse limit).reverse.map List.reverse

def replace (part news items : List α) (limit : Option Nat) : List α :=
  if part.isEmpty then
    let count := limit.getD (items.length + 1)
    if count = 0 then items
    else news ++ between (count - 1) items
  else news.intercalate (split part items limit)
where
  between : Nat → List α → List α
    | 0, xs => xs
    | _ + 1, [] => []
    | count + 1, x :: xs => x :: (news ++ between count xs)

def count (part items : List α) : Nat :=
  if part.isEmpty then items.length + 1 else (split part items none).length - 1

/-- Cut at runs of elements of a class, at most `limit` times, dropping the runs; what stands behind
the last cut is kept to its end. -/
def words (isBetween : α → Bool) : Nat → Nat → List α → List (List α)
  | 0, _, _ => []
  | fuel + 1, limit, items =>
    match items.dropWhile isBetween with
    | [] => []
    | rest =>
      if limit = 0 then [rest]
      else rest.takeWhile (!isBetween ·) ::
        words isBetween fuel (limit - 1) (rest.dropWhile (!isBetween ·))

def splitWords (isBetween : α → Bool) (items : List α) (limit : Option Nat) : List (List α) :=
  words isBetween (items.length + 1) (limit.getD (items.length + 1)) items

def splitWordsBack (isBetween : α → Bool) (items : List α) (limit : Option Nat) : List (List α) :=
  (splitWords isBetween items.reverse limit).reverse.map List.reverse

def strip (left right : Bool) (drop : α → Bool) (items : List α) : List α :=
  let items := if left then items.dropWhile drop else items
  if right then (items.reverse.dropWhile drop).reverse else items

end Search

namespace Text

def isLineEnd (c : Char) : Bool :=
  let n := c.toNat
  (10 ≤ n && n ≤ 13) || (28 ≤ n && n ≤ 30) || n == 0x85 || n == 0x2028 || n == 0x2029

def allLines (keep : Bool) (line : Text) : Text → List Text
  | [] => if line.isEmpty then [] else [line.reverse]
  | '\r' :: '\n' :: rest =>
    (if keep then '\n' :: '\r' :: line else line).reverse :: allLines keep [] rest
  | c :: rest =>
    if isLineEnd c then (if keep then c :: line else line).reverse :: allLines keep [] rest
    else allLines keep (c :: line) rest

def expandTabs (size column : Nat) : Text → Text
  | [] => []
  | '\t' :: rest =>
    let count := if size = 0 then 0 else size - column % size
    List.replicate count ' ' ++ expandTabs size (column + count) rest
  | c :: rest =>
    c :: expandTabs size (if c == '\n' || c == '\r' then 0 else column + 1) rest

end Text

/-!
## Names with wildcards

A star stands for any characters, a question mark for one, and brackets for one of some characters,
or behind an exclamation mark for one that is not among them.
-/

namespace Wildcard

def isMember (c : Char) : Text → Bool
  | a :: '-' :: b :: rest => (a ≤ c && c ≤ b) || isMember c rest
  | a :: rest => a == c || isMember c rest
  | [] => false

/-- Take the members of brackets off a text behind the opening one; a bracket that comes first is a
member. -/
def brackets? (text : Text) : Option (Bool × Text × Text) :=
  let (isOther, body) : Bool × Text := match text with
    | '!' :: rest => (true, rest)
    | rest => (false, rest)
  let first := body.take 1
  let inner := (body.drop 1).takeWhile (· != ']')
  match (body.drop 1).dropWhile (· != ']') with
  | ']' :: rest => some (isOther, first ++ inner, rest)
  | _ => none

def fitsIn : Nat → Text → Text → Bool
  | _, [], name => name.isEmpty
  | 0, _, _ => false
  | fuel + 1, '*' :: rest, name =>
    (List.range (name.length + 1)).any fun k => fitsIn fuel rest (name.drop k)
  | fuel + 1, '?' :: rest, name =>
    match name with
    | _ :: more => fitsIn fuel rest more
    | [] => false
  | fuel + 1, c :: rest, name =>
    match name with
    | [] => false
    | x :: more =>
      match c, brackets? rest with
      | '[', some (isOther, members, behind) =>
        (isMember x members != isOther) && fitsIn fuel behind more
      | _, _ => c == x && fitsIn fuel rest more

def fits (pattern name : Text) : Bool := fitsIn pattern.length pattern name

def anyParts : Text := ['*', '*']

def fitsParts : List Text → List Text → Bool
  | [], parts => parts.isEmpty
  | p :: ps, parts =>
    if p = anyParts then (List.range (parts.length + 1)).any fun k => fitsParts ps (parts.drop k)
    else
      match parts with
      | x :: more => fits p x && fitsParts ps more
      | [] => false

end Wildcard

end MacroExpand
