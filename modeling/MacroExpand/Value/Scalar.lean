import MacroExpand.Number.Double
import MacroExpand.Text.Quoted

/-!
# Scalars

The values that have no identity: they are equal when they look the same, and they are what literals
in source text stand for.
-/

set_option autoImplicit false

namespace MacroExpand

/-- Code points of which some are no characters. -/
structure Codes where
  points : List CodePoint
  noText : CodePoint.text? points = none
  deriving DecidableEq, Repr

inductive Scalar where
  | nil
  | bool (b : Bool)
  | int (n : Int)
  | float (d : Double)
  | complex (re im : Double)
  | str (s : Text)
  /-- A string that is no text. -/
  | codes (s : Codes)
  | bytes (b : List UInt8)
  | ellipsis
  deriving DecidableEq, Repr, Inhabited

namespace Scalar

/-- The string of code points. -/
def ofPoints (points : List CodePoint) : Scalar :=
  match isText : CodePoint.text? points with
  | some text => .str text
  | none => .codes ⟨points, isText⟩

def points? : Scalar → Option (List CodePoint)
  | .str s => some (s.map .char)
  | .codes s => some s.points
  | _ => none

end Scalar

end MacroExpand
