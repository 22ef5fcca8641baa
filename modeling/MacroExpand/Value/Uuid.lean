import MacroExpand.Number.Reading

/-!
# Universally unique identifiers

A 128-bit number that is written as five groups of hexadecimal digits.
-/

set_option autoImplicit false

namespace MacroExpand

/-- A universally unique identifier. -/
structure Uuid where
  number : Nat
  deriving DecidableEq, Repr, Inhabited

def Text.remove (part : Text) : Text → Text
  | [] => []
  | c :: rest =>
    if part.isEmpty then c :: rest
    else if part.isPrefixOf (c :: rest) then
      Text.remove part (rest.drop (part.length - 1))
    else c :: Text.remove part rest
termination_by text => text.length
decreasing_by all_goals (simp_wf; try omega)

/-- Why a text is no identifier. -/
inductive UuidError where
  | size
  | digits (text : Text)
  | range
  deriving DecidableEq, Repr, Inhabited

def UuidError.message : UuidError → String
  | .size => "badly formed hexadecimal UUID string"
  | .digits text =>
    "invalid literal for int() with base 16: " ++ String.ofList (Text.quoted text)
  | .range => "int is out of range (need a 128-bit value)"

namespace Uuid

/-- Read an identifier; a `urn:uuid:` in front, braces and hyphens do not count.  What is left is
read as a hexadecimal number of 32 characters. -/
def ofText (text : Text) : Except UuidError Uuid :=
  let plain := Text.remove (chars "uuid:") (Text.remove (chars "urn:") text)
  let stripped := ((plain.dropWhile fun c => c == '\x7b' || c == '\x7d').reverse.dropWhile
    fun c => c == '\x7b' || c == '\x7d').reverse.filter (· != '-')
  if stripped.length ≠ 32 then .error .size
  else match Number.readInt 16 stripped with
    | none => .error (.digits stripped)
    | some n => if n < 0 then .error .range else .ok ⟨n.toNat⟩

def text (u : Uuid) : Text :=
  let d := hexDigits u.number 32
  d.take 8 ++ '-' :: ((d.drop 8).take 4 ++ '-' :: ((d.drop 12).take 4 ++ '-' ::
    ((d.drop 16).take 4 ++ '-' :: d.drop 20)))

end Uuid

end MacroExpand
