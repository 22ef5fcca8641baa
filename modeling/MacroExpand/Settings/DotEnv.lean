import MacroExpand.Text.Lines
import MacroExpand.Text.Utf8

/-!
# Variable files

A variable file holds lines `NAME=value`, optionally behind the word `export`.  Values may be quoted;
an unquoted value ends before a blank with a number sign.  Inside of every value `$` with a name in
braces stands for another variable.  A line that cannot be read is passed over.  A name without a
value takes back what an earlier line gave it.
-/

set_option autoImplicit false

namespace MacroExpand

namespace DotEnv

def isLineEnd (c : Char) : Bool := c == '\n' || c == '\r'

def isGap (c : Char) : Bool := isBlank c && !isLineEnd c

/-- Take a name off the front: quoted, or up to a blank, an equals sign or a number sign. -/
def name? (text : Text) : Option (Text × Text) :=
  match text with
  | '\'' :: rest =>
    let body := rest.takeWhile (· != '\'')
    if body.isEmpty || body.length == rest.length then none
    else some (body, rest.drop (body.length + 1))
  | _ =>
    let stop := fun c => c == '=' || c == '#' || isBlank c
    let body := text.takeWhile (!stop ·)
    if body.isEmpty then none else some (body, text.dropWhile (!stop ·))

/-- Read up to a closing quote.  A quote behind a backslash closes only if no other quote does;
`last` is the reading up to the last such quote. -/
def quotedBody (quote : Char) (last : Option (Text × Text)) (done : Text) :
    Text → Option (Text × Text)
  | [] => last
  | '\\' :: c :: rest =>
    if c == quote then
      quotedBody quote (some (('\\' :: done).reverse, rest)) (c :: '\\' :: done) rest
    else quotedBody quote last ('\\' :: done) (c :: rest)
  | c :: rest => if c == quote then some (done.reverse, rest) else quotedBody quote last (c :: done) rest

def unescape (double : Bool) : Text → Text
  | [] => []
  | '\\' :: c :: rest =>
    let plain : Option Char :=
      if c == '\\' || c == '\'' then some c
      else if !double then none
      else match c with
        | '"' => some '"'
        | 'a' => some '\x07'
        | 'b' => some '\x08'
        | 'f' => some '\x0c'
        | 'n' => some '\n'
        | 'r' => some '\r'
        | 't' => some '\t'
        | 'v' => some '\x0b'
        | _ => none
    match plain with
    | some p => p :: unescape double rest
    | none => '\\' :: unescape double (c :: rest)
  | c :: rest => c :: unescape double rest

def dropComment : Text → Text
  | [] => []
  | c :: rest =>
    if isBlank c && (rest.dropWhile isBlank).head? = some '#' then [] else c :: dropComment rest

def value? (text : Text) : Option (Text × Text) :=
  match text with
  | '\'' :: rest => (quotedBody '\'' none [] rest).map fun (v, r) => (unescape false v, r)
  | '"' :: rest => (quotedBody '"' none [] rest).map fun (v, r) => (unescape true v, r)
  | _ =>
    let line := text.takeWhile (!isLineEnd ·)
    some (Text.trimRight (dropComment line), text.dropWhile (!isLineEnd ·))

def restOfLine (text : Text) : Text := (text.dropWhile (!isLineEnd ·)).drop 1

def skipComment (text : Text) : Text :=
  let rest := text.dropWhile isGap
  if rest.head? = some '#' then rest.dropWhile (!isLineEnd ·) else text

def closed (name : Option Text) (value : Option Text) (text : Text) :
    Option (Text × Option Text) × Text :=
  let rest := (skipComment text).dropWhile isGap
  let found := name.map fun n => (n, value)
  match rest with
  | [] => (found, [])
  | '\r' :: '\n' :: more => (found, more)
  | c :: more => if isLineEnd c then (found, more) else (none, restOfLine (skipComment text))

def binding (text : Text) : Option (Text × Option Text) × Text :=
  let body := if (chars "export").isPrefixOf text && (text.drop 6).head?.any isGap then
    (text.drop 6).dropWhile isGap else text
  if body.head? = some '#' then closed none none body
  else match name? body with
    | none => (none, restOfLine body)
    | some (name, rest) =>
      match rest.dropWhile isGap with
      | '=' :: more =>
        let more := more.dropWhile isGap
        match value? more with
        | none => (none, restOfLine more)
        | some (value, rest) => closed (some name) (some value) rest
      | more => closed (some name) none more

def bindings : Nat → Text → List (Text × Option Text)
  | 0, _ => []
  | fuel + 1, text =>
    match text.dropWhile isBlank with
    | [] => []
    | body =>
      let (found, rest) := binding body
      found.toList ++ bindings fuel rest

def variableAt? (text : Text) : Option (Text × Text × Text) :=
  let stop := fun c => c == '\x7d' || c == ':'
  let name := text.takeWhile (!stop ·)
  match text.drop name.length with
  | '\x7d' :: rest => some (name, [], rest)
  | ':' :: '-' :: rest =>
    let preset := rest.takeWhile (· != '\x7d')
    match rest.drop preset.length with
    | '\x7d' :: rest => some (name, preset, rest)
    | _ => none
  | _ => none

def interpolate (lookup : Text → Option (Option Text)) : Nat → Text → Text
  | 0, text => text
  | _, [] => []
  | fuel + 1, '$' :: '\x7b' :: rest =>
    match variableAt? rest with
    | some (name, preset, rest) =>
      let value := match lookup name with
        | some value => value.getD []
        | none => preset
      value ++ interpolate lookup fuel rest
    | none => '$' :: interpolate lookup fuel ('\x7b' :: rest)
  | fuel + 1, c :: rest => c :: interpolate lookup fuel rest

def put (name : Text) (value : Option Text) : List (Text × Option Text) → List (Text × Option Text)
  | [] => [(name, value)]
  | (n, v) :: rest => if n = name then (n, value) :: rest else (n, v) :: put name value rest

/-- The variables of a file, in order; a variable may use those before it and the environment. -/
def read (env : List (Text × Text)) (text : Text) : List (Text × Option Text) :=
  (bindings (text.length + 1) text).foldl (fun done (name, value) =>
    let lookup := fun n =>
      ((done.find? fun e => e.1 == n).map Prod.snd).orElse fun _ =>
        (env.reverse.find? fun e => e.1 == n).map fun e => some e.2
    put name (value.map fun v => interpolate lookup (v.length + 1) v) done) []

def unifyLineEnds : Text → Text
  | [] => []
  | '\r' :: '\n' :: rest => '\n' :: unifyLineEnds rest
  | c :: rest => (if c = '\r' then '\n' else c) :: unifyLineEnds rest

/-- The text of a file: without a mark for the order of bytes, and with line feeds at the ends of
lines. -/
def decode (bytes : List UInt8) : Except Utf8Error Text :=
  (utf8Decode bytes).map fun text =>
    unifyLineEnds (if text.head? = some '\uFEFF' then text.drop 1 else text)

end DotEnv

end MacroExpand
