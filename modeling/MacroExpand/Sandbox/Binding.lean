import MacroExpand.Sandbox.Cell
import MacroExpand.Syntax.Scope

/-!
# Parameters and arguments

Binding matches the arguments of a call with the parameters of a function: by place, then by name,
then by default.  Faults are looked for in a fixed order, so a call with several faults always
reports the same one.
-/

set_option autoImplicit false

namespace MacroExpand

namespace Sandbox

/-- The names of the parameters of a function. -/
structure Signature where
  /-- Parameters that take arguments by place only. -/
  placeOnly : List String := []
  /-- Parameters that take arguments by place or by name. -/
  plain : List String := []
  /-- The parameter that takes all further arguments by place. -/
  rest : Option String := none
  /-- Parameters that take arguments by name only. -/
  nameOnly : List String := []
  /-- The parameter that takes all further arguments by name. -/
  keywords : Option String := none
  deriving DecidableEq, Repr, Inhabited

namespace Signature

def namesIn (parameters : Tree) (slot : Nat) : List String :=
  (parameters.slot slot).filterMap fun t =>
    match t.kind with
    | .arg name _ => some name
    | _ => none

def ofTree (parameters : Tree) : Signature :=
  { placeOnly := namesIn parameters 0
    plain := namesIn parameters 1
    rest := (namesIn parameters 2).head?
    nameOnly := namesIn parameters 3
    keywords := (namesIn parameters 5).head? }

def places (s : Signature) : List String := s.placeOnly ++ s.plain

end Signature

/-- Why arguments do not fit parameters. -/
inductive BindFault where
  | repeated (name : String)
  | placeOnlyByName (names : List String)
  | unexpected (name : String)
  /-- Too many arguments by place: how many are allowed at least and at most, how many are given,
  and how many parameters that take names only are given too. -/
  | tooMany (low high given named : Nat)
  | missing (names : List String)
  | missingNamed (names : List String)
  deriving DecidableEq, Repr, Inhabited

namespace BindFault

def listed : List String → String
  | [] => ""
  | [a] => "'" ++ a ++ "'"
  | [a, b] => "'" ++ a ++ "' and '" ++ b ++ "'"
  | names =>
    String.join (names.dropLast.map fun n => "'" ++ n ++ "', ") ++ "and '" ++
      names.getLastD "" ++ "'"

def plural (n : Nat) : String := if n = 1 then "" else "s"

def message (function : String) : BindFault → String
  | .repeated name => function ++ "() got multiple values for argument '" ++ name ++ "'"
  | .placeOnlyByName names =>
    function ++ "() got some positional-only arguments passed as keyword arguments: '" ++
      ", ".intercalate names ++ "'"
  | .unexpected name => function ++ "() got an unexpected keyword argument '" ++ name ++ "'"
  | .tooMany low high given named =>
    let allowed := if low = high then toString high
      else "from " ++ toString low ++ " to " ++ toString high
    let ending := if low = high then plural high else "s"
    let extra := if named = 0 then ""
      else " positional argument" ++ plural given ++ " (and " ++ toString named ++
        " keyword-only argument" ++ plural named ++ ")"
    function ++ "() takes " ++ allowed ++ " positional argument" ++ ending ++ " but " ++
      toString given ++ extra ++ (if given = 1 ∧ named = 0 then " was" else " were") ++ " given"
  | .missing names =>
    function ++ "() missing " ++ toString names.length ++ " required positional argument" ++
      plural names.length ++ ": " ++ listed names
  | .missingNamed names =>
    function ++ "() missing " ++ toString names.length ++ " required keyword-only argument" ++
      plural names.length ++ ": " ++ listed names

end BindFault

structure Bound where
  /-- The parameters that take one argument. -/
  single : List (String × Value) := []
  /-- The arguments by place that are left. -/
  rest : List Value := []
  /-- The arguments by name that are left. -/
  keywords : List (String × Value) := []
  deriving DecidableEq, Repr, Inhabited

namespace Signature

def bindNamed (s : Signature) (given : List String) :
    Bound → List (String × Value) → Except BindFault Bound
  | b, [] => .ok b
  | b, (name, v) :: more =>
    if (s.plain ++ s.nameOnly).contains name then
      if (lookup b.single name).isSome then .error (.repeated name)
      else bindNamed s given { b with single := b.single ++ [(name, v)] } more
    else if s.keywords.isSome then
      bindNamed s given { b with keywords := b.keywords ++ [(name, v)] } more
    else
      let wrong := s.placeOnly.filter given.contains
      .error (if wrong.isEmpty then .unexpected name else .placeOnlyByName wrong)

/-- Match arguments with parameters.  The defaults belong to the last parameters that take
arguments by place. -/
def bind (s : Signature) (defaults : List Value) (named : List (String × Value)) (a : Arguments) :
    Except BindFault Bound := do
  let count := s.places.length
  let given := a.positional.length
  let start : Bound := { single := s.places.zip a.positional, rest := a.positional.drop count }
  let b ← s.bindNamed (a.keyword.map Prod.fst) start a.keyword
  if count < given ∧ s.rest.isNone then
    throw (.tooMany (count - defaults.length) count given
      (s.nameOnly.filter fun n => (lookup b.single n).isSome).length)
  let free := fun (names : List String) => names.filter fun n => (lookup b.single n).isNone
  let required := s.places.take (count - defaults.length)
  if !(free required).isEmpty then throw (.missing (free required))
  let fromDefaults := ((s.places.drop (count - defaults.length)).zip defaults).filter fun d =>
    (lookup b.single d.1).isNone
  let absent := free s.nameOnly
  let unmet := absent.filter fun n => (lookup named n).isNone
  if !unmet.isEmpty then throw (.missingNamed unmet)
  let fromNamed := named.filter fun d => absent.contains d.1
  return { b with single := b.single ++ fromDefaults ++ fromNamed }

end Signature

end Sandbox

end MacroExpand
