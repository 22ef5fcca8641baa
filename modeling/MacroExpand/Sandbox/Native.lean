import MacroExpand.Sandbox.Binding
import MacroExpand.Sandbox.Operators

/-!
# Built-in functions and methods

A built-in says how many arguments it takes and which of them have names; calls that do not fit are
refused before it runs.
-/

set_option autoImplicit false

namespace MacroExpand

namespace Sandbox

namespace Arguments

def get? (a : Arguments) (place : Nat) (name : String) : Option Value :=
  (a.positional[place]?).or (lookup a.keyword name)

def some? (a : Arguments) (place : Nat) (name : String) : Option Value :=
  match a.get? place name with
  | some (.scalar .nil) => none
  | v => v

def named? (a : Arguments) (name : String) : Option Value := lookup a.keyword name

def under (a : Arguments) (name : String) : Value := (lookup a.keyword name).getD nil

def at0 (a : Arguments) : Value := a.positional.headD nil

def at1 (a : Arguments) : Value := a.positional.getD 1 nil

end Arguments

structure Parameters where
  names : List String
  /-- How many have to be given. -/
  required : Nat := 0
  /-- How many may be given by place. -/
  places : Nat := names.length
  /-- How many may not be given by name. -/
  unnamed : Nat := 0

def Parameters.check (p : Parameters) (name : String) (a : Arguments) : Eval Unit := do
  let given := a.positional.length
  let all := given + a.keyword.length
  let size := p.names.length
  let plural := fun (n : Nat) (kind : String) =>
    toString n ++ " " ++ kind ++ (if n = 1 then "argument" else "arguments")
  if size < all then
    typeError (name ++ " takes at most " ++ plural size (if given = 0 then "keyword " else "") ++
      " (" ++ toString all ++ " given)")
  if p.places < given then
    if p.places = 0 then typeError (name ++ " takes no positional arguments")
    typeError (name ++ " takes " ++ (if p.required < p.places then "at most " else "exactly ") ++
      plural p.places "positional " ++ " (" ++ toString given ++ " given)")
  let least := min p.unnamed p.required
  if given < least then
    typeError (name ++ " takes " ++ (if least < p.places then "at least " else "exactly ") ++
      plural least "positional " ++ " (" ++ toString given ++ " given)")
  for (parameter, place) in p.names.zipIdx do
    if place < p.required && given ≤ place && (lookup a.keyword parameter).isNone then
      typeError (name ++ " missing required argument '" ++ parameter ++ "' (pos " ++
        toString (place + 1) ++ ")")
  for (parameter, place) in p.names.zipIdx do
    if p.unnamed ≤ place && place < given && (lookup a.keyword parameter).isSome then
      typeError ("argument for " ++ name ++ " given by name ('" ++ parameter ++
        "') and position (" ++ toString (place + 1) ++ ")")
  for (key, _) in a.keyword do
    if !(p.names.drop p.unnamed).contains key then
      typeError ("'" ++ key ++ "' is an invalid keyword argument for " ++
        (if name == "function" then "this function" else name))

/-- The parameters of a built-in that is called like a function of a program. -/
structure Declared where
  /-- The name of the function in messages. -/
  qualname : String
  signature : Signature
  /-- How many parameters by place have to be given. -/
  required : Nat := 0
  /-- The parameters by name only that may be left out. -/
  optional : List String := []

namespace Declared

def add (d : Declared) (isNamed : Bool) (word : String) : Declared × Bool :=
  let s := d.signature
  let body := fun (k : Nat) => (word.drop k).toString
  if word == "/" then
    ({ d with signature := { s with placeOnly := s.plain, plain := [] } }, isNamed)
  else if word.startsWith "**" then
    ({ d with signature := { s with keywords := some (body 2) } }, isNamed)
  else if word == "*" then (d, true)
  else if word.startsWith "*" then ({ d with signature := { s with rest := some (body 1) } }, true)
  else
    let isFree := word.endsWith "="
    let name := if isFree then (word.dropEnd 1).toString else word
    if isNamed then
      ({ d with signature := { s with nameOnly := s.nameOnly ++ [name] }
                optional := if isFree then d.optional ++ [name] else d.optional }, isNamed)
    else
      ({ d with signature := { s with plain := s.plain ++ [name] }
                required := if isFree then d.required else d.required + 1 }, isNamed)

/-- Read a list of parameters divided by blanks, in which an equals sign marks those that may be left
out. -/
def ofText (qualname parameters : String) : Declared :=
  let words := (parameters.splitOn " ").filter (!·.isEmpty)
  (words.foldl (fun (d, isNamed) word => d.add isNamed word)
    (({ qualname, signature := {} } : Declared), false)).1

def arrange (d : Declared) (a : Arguments) : Except BindFault Arguments := do
  let names := d.signature.places
  discard (d.signature.bind (List.replicate (names.length - d.required) nil)
    (d.optional.map fun n => (n, nil)) a)
  return ⟨a.positional.drop names.length, names.zip a.positional ++ a.keyword⟩

end Declared

/-- Which arguments a built-in takes. -/
inductive Shape where
  | none
  | one
  /-- Some number of arguments by place. -/
  | places (low high : Nat)
  /-- Some number of arguments by place, with another wording if there are too few or too many. -/
  | counted (low high : Nat)
  | named (parameters : Parameters)
  /-- Parameters like those of a function of a program; the first one of a method is the value. -/
  | declared (parameters : Declared) (isMethod : Bool)
  /-- The built-in checks its arguments itself. -/
  | free

/-- A built-in function, or a method of the value that it is given first. -/
structure Native where
  name : String
  shape : Shape
  run : Interpreter → Value → Arguments → Eval Value

def expects (name : String) (low high : Nat) (a : Arguments) : Eval Unit := do
  let n := a.positional.length
  let plural := fun (k : Nat) => toString k ++ (if k = 1 then " argument" else " arguments")
  if n < low ∨ high < n then
    if low = high then typeError (name ++ " expected " ++ plural low ++ ", got " ++ toString n)
    else if n < low then
      typeError (name ++ " expected at least " ++ plural low ++ ", got " ++ toString n)
    else typeError (name ++ " expected at most " ++ plural high ++ ", got " ++ toString n)

def takes (name : String) (low high : Nat) (a : Arguments) : Eval Unit := do
  let n := a.positional.length
  if n < low ∨ high < n then
    let bound := if n < low then low else high
    let relation := if low = high then "exactly " else if n < low then "at least " else "at most "
    typeError (name ++ "() takes " ++ relation ++ toString bound ++
      (if bound = 1 then " argument (" else " arguments (") ++ toString n ++ " given)")

namespace Native

def plain (name : String) (run : Interpreter → Value → Eval Value) : Native :=
  ⟨name, .none, fun r self _ => run r self⟩

def single (name : String) (run : Interpreter → Value → Value → Eval Value) : Native :=
  ⟨name, .one, fun r self a => run r self a.at0⟩

def placed (name : String) (low high : Nat)
    (run : Interpreter → Value → Arguments → Eval Value) : Native :=
  ⟨name, .places low high, run⟩

def counted (name : String) (low high : Nat)
    (run : Interpreter → Value → Arguments → Eval Value) : Native :=
  ⟨name, .counted low high, run⟩

def named (name : String) (parameters : Parameters)
    (run : Interpreter → Value → Arguments → Eval Value) : Native :=
  ⟨name, .named parameters, run⟩

def free (name : String) (run : Interpreter → Value → Arguments → Eval Value) : Native :=
  ⟨name, .free, run⟩

def unary (name : String) (run : Interpreter → Value → Eval Value) : Native :=
  ⟨name, .one, fun r _ a => run r a.at0⟩

def ofPlaces (name : String) (low high : Nat) (run : Interpreter → Arguments → Eval Value) :
    Native :=
  ⟨name, .places low high, fun r _ a => run r a⟩

def ofNames (name : String) (parameters : Parameters) (run : Interpreter → Arguments → Eval Value) :
    Native :=
  ⟨name, .named parameters, fun r _ a => run r a⟩

def function (name : String) (run : Interpreter → Arguments → Eval Value) : Native :=
  ⟨name, .free, fun r _ a => run r a⟩

def declared (name qualname parameters : String) (run : Interpreter → Arguments → Eval Value) :
    Native :=
  ⟨name, .declared (.ofText qualname parameters) false, fun r _ a => run r a⟩

def method (owner name parameters : String) (run : Interpreter → Value → Arguments → Eval Value) :
    Native :=
  ⟨name, .declared (.ofText (owner ++ "." ++ name) ("self " ++ parameters)) true, run⟩

def lastName (name : String) : String := (name.splitOn ".").getLastD name

def plainOperators : List String := [
  "__format__", "__dir__", "__round__", "__trunc__", "__floor__", "__ceil__", "__reversed__",
  "__init_subclass__", "__class_getitem__"]

def isOperator (name : String) : Bool :=
  name.startsWith "__" && name.endsWith "__" && !plainOperators.contains name

def call (n : Native) (full : String) (r : Interpreter) (self : Value) (a : Arguments) :
    Eval Value := do
  let given := a.positional.length
  let operator := isOperator n.name
  let unnamed := do
    if !a.keyword.isEmpty then
      typeError ((if operator then "wrapper " ++ n.name else full) ++ "() takes no keyword arguments")
  let counted := fun (expected : Nat) => do
    if operator && given ≠ expected then
      typeError ("expected " ++ toString expected ++
        (if expected = 1 then " argument" else " arguments") ++ ", got " ++ toString given)
  let mut arguments := a
  match n.shape with
  | .free => pure ()
  | .declared d isMethod =>
    let whole := if isMethod then { a with positional := self :: a.positional } else a
    match d.arrange whole with
    | .error fault => typeError (fault.message d.qualname)
    | .ok arranged =>
      arguments := if isMethod then { arranged with keyword := arranged.keyword.drop 1 }
        else arranged
  | .named p => p.check (lastName full ++ "()") a
  | .none =>
    unnamed
    counted 0
    if given ≠ 0 then
      typeError (full ++ "() takes no arguments (" ++ toString given ++ " given)")
  | .one =>
    unnamed
    counted 1
    if given ≠ 1 then
      typeError (full ++ "() takes exactly one argument (" ++ toString given ++ " given)")
  | .places low high =>
    unnamed
    expects (lastName full) low high a
  | .counted low high =>
    unnamed
    takes (lastName full) low high a
  n.run r self arguments

end Native

def findNative (table : List Native) (name : String) : Option Native :=
  table.find? fun n => n.name == name

def argumentName (v : Value) : Eval String := do
  if v = nil then return "None" else typeName v

def badArgument {α : Type} (front expected : String) (v : Value) : Eval α := do
  typeError (front ++ " must be " ++ expected ++ ", not " ++ (← argumentName v))

def text? (v : Value) : Eval (Option Text) := do
  match (← unwrap v) with
  | .scalar (.str t) => return some t
  | _ => return none

def needText (front : String) (v : Value) : Eval Text := do
  match (← text? v) with
  | some t => return t
  | none => badArgument front "str" v

def state? (v : Value) : Eval (Option State) := do
  match (← core? v) with
  | some (.known _ s) => return some s
  | _ => return none

end Sandbox

end MacroExpand
