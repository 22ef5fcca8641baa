import MacroExpand.Value.Equality
import MacroExpand.Value.Reduction

/-!
# Making values of known classes

Values of known classes are made from a text, from whole numbers or from bytes.
-/

set_option autoImplicit false

namespace MacroExpand

def Class.named (name : String) : Class :=
  let within := fun (module : String) => Class.known module name
  match name with
  | "OrderedDict" => Class.orderedDict
  | "Decimal" => within "decimal"
  | "Fraction" => within "fractions"
  | "UUID" => within "uuid"
  | "URL" | "Headers" | "QueryParams" | "Request" | "Response" => within "httpx"
  | "FormData" => Class.formData
  | "datetime" => Class.datetime
  | "date" | "time" | "timedelta" => within "datetime"
  | "PurePosixPath" => Class.purePosixPath
  | "PureWindowsPath" => Class.pureWindowsPath
  | "PosixPath" => Class.posixPath
  | "Enum" => within "enum"
  | "defaultdict" => Class.known "collections" name [("builtins", "dict")]
  | _ => within "builtins"

/-- Why a value cannot be made. -/
inductive MakeError where
  | notDecimal
  /-- The exponent is out of bounds. -/
  | decimalRange
  | badUuid (reason : UuidError)
  | zeroDenominator (numerator : Int)
  | badUrl (reason : String)
  | badText (reason : String)
  deriving DecidableEq, Repr, Inhabited

namespace MakeError

def kind : MakeError → String
  | .notDecimal | .decimalRange => "InvalidOperation"
  | .zeroDenominator _ => "ZeroDivisionError"
  | .badUrl _ => "InvalidURL"
  | .badUuid _ | .badText _ => "ValueError"

def message : MakeError → String
  | .notDecimal => "[<class 'decimal.ConversionSyntax'>]"
  | .decimalRange => "[<class 'decimal.InvalidOperation'>]"
  | .badUuid reason => reason.message
  | .zeroDenominator n => "Fraction(" ++ toString n ++ ", 0)"
  | .badUrl reason | .badText reason => reason

end MakeError

namespace State

def read {α : Type} (fault : String → MakeError) (make : α → State) :
    Except String α → Except MakeError State
  | .ok a => .ok (make a)
  | .error reason => .error (fault reason)

/-- The state of a value of a known class, made from a text if there is one; `none` for a class whose
values are made in other ways. -/
def make? (cls : String) (given : Option Text) (numbers : List Int) (bytes : List UInt8) :
    Option (Except MakeError State) :=
  let text := given.getD []
  let number := fun (k : Nat) (standard : Int) => numbers.getD k standard
  match cls with
  | "Decimal" => some (match ExactDecimal.ofText (given.getD ['0']) with
      | some d => if d.fits then .ok (.decimal d) else .error .decimalRange
      | none => .error .notDecimal)
  | "UUID" => some (match Uuid.ofText text with
      | .ok u => .ok (.uuid u)
      | .error reason => .error (.badUuid reason))
  | "Fraction" => some (
      let den := number 1 1
      if den = 0 then .error (.zeroDenominator (number 0 0))
      else
        let q := Quotient.normal (number 0 0) den
        .ok (.fraction q.num q.den))
  | "timedelta" => some (.ok (.timedelta (.ofParts (number 0 0) (number 1 0) (number 2 0))))
  | "bytearray" => some (.ok (.bytearray bytes))
  | "PurePosixPath" | "PosixPath" => some (.ok (.path (.ofText .posix text)))
  | "PureWindowsPath" => some (.ok (.path (.ofText .windows text)))
  | "URL" => some (read .badUrl .url (Url.ofText text))
  | "QueryParams" => some (.ok (.queryParams (groupPairs (queryPairs text))))
  | "datetime" => some (read .badText .datetime (DateTime.ofIso text))
  | "date" => some (read .badText .date (Date.ofIso text))
  | "time" => some (read .badText .time (TimeOfDay.ofIso text))
  | "Headers" => some (.ok (.headers ⟨[]⟩))
  | "FormData" => some (.ok (.formData []))
  | _ => none

end State

def flagNamed (name : String) : String :=
  let start := if name == "S" then "D" else if name == "X" then "V" else name
  (patternFlags.find? fun f => name.length == 1 && f.startsWith start && f != "DEBUG").getD name

def flagText (names : List String) : String :=
  match names.map flagNamed with
  | [name] => name
  | full => "|".intercalate (patternFlags.filter full.contains)

end MacroExpand
