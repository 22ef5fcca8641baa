import MacroExpand.Settings.Basic
import MacroExpand.Text.Quoted

/-!
# The command line

What the command line offers, and how it is read.
-/

set_option autoImplicit false

namespace MacroExpand

/-!
## The options of the command line

What the command line offers: which options there are, what they are called, whether they take a
value, and what is said about them.
-/

namespace CommandLine

inductive OptionKey where
  | help
  | outDir
  | cachePolicy
  | noRetainLines
  | verbose
  | version
  deriving DecidableEq, Repr, Inhabited

/-- Whether an option takes a value: what stands for it, and the values it is chosen from. -/
inductive OptionShape where
  | switch
  | value (placeholder : String)
  | choice (choices : List String)
  deriving DecidableEq, Repr, Inhabited

structure OptionSpec where
  key : OptionKey
  names : List String
  shape : OptionShape
  help : String
  deriving DecidableEq, Repr, Inhabited

namespace OptionSpec

def all : List OptionSpec := [
  ⟨.help, ["-h", "--help"], .switch, "show this help message and exit"⟩,
  ⟨.outDir, ["-o", "--out-dir"], .value "OUT_DIR",
    "Directory for the expanded files. Prints to stdout if not provided."⟩,
  ⟨.cachePolicy, ["--cache-policy"], .choice ["name", "file", "content"],
    "Scope of the macro result cache (default from settings)."⟩,
  ⟨.noRetainLines, ["--no-retain-lines"], .switch,
    "Re-emit the whole module instead of patching the original text."⟩,
  ⟨.verbose, ["-v", "--verbose"], .switch, "Log every macro execution."⟩,
  ⟨.version, ["--version"], .switch, "show program's version number and exit"⟩]

def title (o : OptionSpec) : String := "/".intercalate o.names

def valueText (o : OptionSpec) : String :=
  match o.shape with
  | .switch => ""
  | .value placeholder => " " ++ placeholder
  | .choice choices => " \x7b" ++ ",".intercalate choices ++ "\x7d"

def named? (name : Text) : Option (OptionSpec × String) :=
  all.findSome? fun o => (o.names.find? fun n => n.toList = name).map fun n => (o, n)

def startingWith (front : Text) : List (OptionSpec × String) :=
  all.flatMap fun o =>
    (o.names.filter fun n => front.isPrefixOf n.toList).map fun n => (o, n)

end OptionSpec

def sourcesName : String := "sources"

def sourcesHelp : String := "Source files or directories to expand."

def description : String := "Expand build-time macros in Python sources."

end CommandLine

/-!
## Reading the command line

Every word is first told apart: options by their names, by the beginnings of their long names or by
their letters run together, everything behind a double hyphen as plain.  The first run of plain words
are the sources; plain words behind it and unknown options are not recognized.
-/

namespace CommandLine

structure Arguments where
  sources : List Text := []
  outDir : Option Text := none
  cachePolicy : Option CachePolicy := none
  noRetainLines : Bool := false
  verbose : Bool := false
  deriving DecidableEq, Repr, Inhabited

/-- Why a command line is refused. -/
inductive ArgumentError where
  | ambiguous (word : Text) (names : List String)
  | ignoredValue (option : OptionSpec) (value : Text)
  | missingValue (option : OptionSpec)
  | badChoice (option : OptionSpec) (value : Text) (choices : List String)
  | missingSources
  | unrecognized (words : List Text)
  deriving DecidableEq, Repr, Inhabited

def ArgumentError.message : ArgumentError → Text
  | .ambiguous word names =>
    chars "ambiguous option: " ++ word ++ chars " could match " ++ chars (", ".intercalate names)
  | .ignoredValue option value =>
    chars ("argument " ++ option.title ++ ": ignored explicit argument ") ++ Text.quoted value
  | .missingValue option => chars ("argument " ++ option.title ++ ": expected one argument")
  | .badChoice option value choices =>
    chars ("argument " ++ option.title ++ ": invalid choice: ") ++ Text.quoted value ++
      chars " (choose from " ++
      Text.joinWith (chars ", ") (choices.map fun c => Text.quoted (chars c)) ++ [')']
  | .missingSources => chars ("the following arguments are required: " ++ sourcesName)
  | .unrecognized words => chars "unrecognized arguments: " ++ Text.joinWith [' '] words

/-- What ends the reading of a command line. -/
inductive Stop where
  | help
  | version
  | refused (error : ArgumentError)
  deriving DecidableEq, Repr, Inhabited

/-! ### Telling words apart -/

inductive Word where
  | plain (text : Text)
  /-- The double hyphen. -/
  | divider
  /-- An option under one of its names, with the value that is written in the same word. -/
  | option (text : Text) (spec : OptionSpec) (name : String) (value : Option Text)
  /-- What looks like an option and is none. -/
  | unknown (text : Text)
  deriving DecidableEq, Repr, Inhabited

namespace Word

def given : Word → Text
  | .plain text | .option text _ _ _ | .unknown text => text
  | .divider => chars "--"

def isLoose : Word → Bool
  | .plain _ | .divider => true
  | _ => false

def isPlain : Word → Bool
  | .plain _ => true
  | _ => false

end Word

def atEquals (text : Text) : Text × Option Text :=
  match text.dropWhile (· != '=') with
  | [] => (text, none)
  | _ :: value => (text.takeWhile (· != '='), some value)

def isNegative (text : Text) : Bool :=
  match text with
  | '-' :: rest =>
    let whole := rest.takeWhile Char.isDigit
    match rest.drop whole.length with
    | [] => !whole.isEmpty
    | '.' :: places => !places.isEmpty && places.all Char.isDigit
    | _ => false
  | _ => false

/-- The options that a word can mean: a long name by its beginning, or a letter with a value run
together with it. -/
def meanings (word : Text) : List (OptionSpec × String × Option Text) :=
  if (chars "--").isPrefixOf word then
    let (front, value) := atEquals word
    (OptionSpec.startingWith front).map fun (o, name) => (o, name, value)
  else
    match OptionSpec.named? (word.take 2) with
    | some (o, name) => [(o, name, some (word.drop 2))]
    | none => []

def classify (word : Text) : Except Stop Word :=
  if word.head? ≠ some '-' then .ok (.plain word)
  else
    match OptionSpec.named? word with
    | some (o, name) => .ok (.option word o name none)
    | none =>
      if word.length = 1 then .ok (.plain word)
      else
        let (front, value) := atEquals word
        match value, OptionSpec.named? front with
        | some v, some (o, name) => .ok (.option word o name (some v))
        | _, _ =>
          match meanings word with
          | [(o, name, v)] => .ok (.option word o name v)
          | [] =>
            if isNegative word || word.contains ' ' then .ok (.plain word)
            else .ok (.unknown word)
          | many => .error (.refused (.ambiguous word (many.map fun m => m.2.1)))

def classifyAll : List Text → Except Stop (List Word)
  | [] => .ok []
  | word :: rest =>
    if word = chars "--" then .ok (.divider :: rest.map .plain)
    else do
      let first ← classify word
      return first :: (← classifyAll rest)

/-! ### Options -/

/-- Options that a word holds, and the one at its end that still takes a value: one that is written
in the word, or the next word. -/
structure Cluster where
  switches : List OptionSpec
  last : Option (OptionSpec × Option Text) := none

def letters (option : OptionSpec) : Text → Except Stop Cluster
  | [] => .error (.refused (.ignoredValue option []))
  | c :: rest =>
    match option.shape with
    | .switch =>
      match OptionSpec.named? ['-', c], rest with
      | none, _ => .error (.refused (.ignoredValue option (c :: rest)))
      | some (next, _), [] =>
        match next.shape with
        | .switch => .ok ⟨[option, next], none⟩
        | _ => .ok ⟨[option], some (next, none)⟩
      | some (next, _), rest => do
          let cluster ← letters next rest
          return { cluster with switches := option :: cluster.switches }
    | _ => .ok ⟨[], some (option, some (c :: rest))⟩

def cluster (option : OptionSpec) (name : String) : Option Text → Except Stop Cluster
  | none =>
    match option.shape with
    | .switch => .ok ⟨[option], none⟩
    | _ => .ok ⟨[], some (option, none)⟩
  | some value =>
    match option.shape with
    | .switch =>
      if name.length = 2 then letters option value
      else .error (.refused (.ignoredValue option value))
    | _ => .ok ⟨[], some (option, some value)⟩

def turnOn (a : Arguments) (option : OptionSpec) : Except Stop Arguments :=
  match option.key with
  | .help => .error .help
  | .version => .error .version
  | .noRetainLines => .ok { a with noRetainLines := true }
  | .verbose => .ok { a with verbose := true }
  | _ => .ok a

def assign (a : Arguments) (option : OptionSpec) (value : Text) : Except Stop Arguments :=
  match option.shape with
  | .choice choices =>
    if choices.any fun c => c.toList = value then
      .ok { a with cachePolicy := Settings.policyOf? value }
    else .error (.refused (.badChoice option value choices))
  | _ => .ok { a with outDir := some value }

def takeValue (option : OptionSpec) (value : Option Text) (rest : List Word) :
    Except Stop (Text × List Word) :=
  match value, rest with
  | some v, rest => .ok (v, rest)
  | none, .plain v :: rest => .ok (v, rest)
  | none, _ => .error (.refused (.missingValue option))

def takeOption (a : Arguments) (option : OptionSpec) (name : String) (value : Option Text)
    (rest : List Word) : Except Stop (Arguments × List Word) := do
  let parts ← cluster option name value
  match parts.last with
  | none => return (← parts.switches.foldlM turnOn a, rest)
  | some (last, given) => do
      let (v, rest) ← takeValue last given rest
      let a ← parts.switches.foldlM turnOn a
      return (← assign a last v, rest)

/-! ### The whole line -/

/-- What has been read: the arguments, whether the sources were among it, and what was not
recognized. -/
structure Reading where
  arguments : Arguments := {}
  hasSources : Bool := false
  extras : List Text := []

def takeRun (r : Reading) (run : List Word) : Reading :=
  if !r.hasSources && run.any Word.isPlain then
    { r with hasSources := true
             arguments := { r.arguments with sources := (run.map Word.given).erase (chars "--") } }
  else { r with extras := r.extras ++ run.map Word.given }

def readWords : Nat → Reading → List Word → Except Stop Reading
  | 0, r, _ => .ok r
  | fuel + 1, r, words =>
    match words with
    | [] => .ok r
    | .option _ o name value :: rest => do
        let (arguments, rest) ← takeOption r.arguments o name value rest
        readWords fuel { r with arguments } rest
    | .unknown text :: rest => readWords fuel { r with extras := r.extras ++ [text] } rest
    | words => readWords fuel (takeRun r (words.takeWhile Word.isLoose))
        (words.dropWhile Word.isLoose)

def read (words : List Text) : Except Stop Arguments := do
  let told ← classifyAll words
  let r ← readWords (told.length + 1) {} told
  if !r.hasSources then throw (.refused .missingSources)
  if !r.extras.isEmpty then throw (.refused (.unrecognized r.extras))
  return r.arguments

end CommandLine

end MacroExpand
