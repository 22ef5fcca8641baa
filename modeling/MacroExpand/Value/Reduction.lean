import MacroExpand.Value.Graph
import MacroExpand.Text.Lines

/-!
# Reductions

A reduction says how an object is rebuilt: which importable name is called, and with which
arguments.  A registry maps classes to reducers; an object is reduced by the reducer of the nearest
class of its lineage.  A reducer builds its arguments afresh, so a list it passes is shared with
nothing else unless it hands on a value of the object itself.
-/

set_option autoImplicit false

namespace MacroExpand

/-- Why a value cannot be written as an expression. -/
inductive SerializeError where
  | callable (qualname : Text)
  | unsupported (name : ClassName)
  | cyclic (typeName : String)
  | tooDeep
  | requestNotRead
  | responseNotRead
  | requestConsumed
  | responseConsumed
  | undecodable (reason : String)
  deriving DecidableEq, Repr, Inhabited

def consumedMessage : String :=
  "Attempted to read or stream some content, but the content has already been streamed. " ++
  "For requests, this could be due to passing a generator as request content, and then " ++
  "receiving a redirect response or a secondary request as part of an authentication flow." ++
  "For responses, this could be due to attempting to stream the response content more than once."

def SerializeError.message : SerializeError → String
  | .callable qualname => "functions cannot be serialized: " ++ String.ofList (Text.quoted qualname)
  | .unsupported name => "cannot serialize value of type " ++ name.module ++ "." ++ name.qualname
  | .cyclic typeName => "cyclic reference through " ++ typeName ++ " cannot be serialized"
  | .tooDeep => "value is nested too deeply to serialize"
  | .requestNotRead =>
    "Attempted to access streaming request content, without having called \x60read()\x60."
  | .responseNotRead =>
    "Attempted to access streaming response content, without having called \x60read()\x60."
  | .requestConsumed => "could not read Request body: " ++ consumedMessage
  | .responseConsumed => "could not read Response body: " ++ consumedMessage
  | .undecodable reason => "could not read Response body: " ++ reason

/-- A value that a reducer builds: an existing one, or fresh objects around such. -/
inductive Fresh where
  | value (v : Value)
  | inst (cls : Class) (state : State)
  | list (items : List Fresh)
  | tuple (items : List Fresh)
  | dict (entries : List (Scalar × Fresh))
  deriving Inhabited

/-- A recipe whose arguments are still to be put into a graph. -/
structure FreshRecipe where
  module : String
  qualname : String
  args : Option (List Fresh)
  kwargs : List (String × Fresh) := []
  deriving Inhabited

abbrev Reducer := Class → State → Except SerializeError (Option FreshRecipe)

/-- Reducers by class. -/
structure Registry where
  entries : List (ClassKey × Reducer)

namespace Registry

def empty : Registry := ⟨[]⟩

def find? (registry : Registry) (key : ClassKey) : Option Reducer :=
  (registry.entries.find? fun e => e.1 = key).map Prod.snd

def register (registry : Registry) (keys : List ClassKey) (reducer : Reducer) : Registry :=
  ⟨keys.map (fun key => (key, reducer)) ++ registry.entries⟩

def has (registry : Registry) (cls : Class) : Bool :=
  cls.lineage.any fun key => (registry.find? key).isSome

/-- Reduce an instance with the reducer of the nearest class. -/
def reduce (registry : Registry) (cls : Class) (state : State) :
    Except SerializeError (Option FreshRecipe) :=
  match cls.lineage.findSome? registry.find? with
  | some reducer => reducer cls state
  | none => .ok none

end Registry

mutual

/-- Put fresh objects into a graph. -/
def Fresh.alloc (graph : Graph) : Fresh → Graph × Value
  | .value v => (graph, v)
  | .inst cls state => graph.alloc (.inst cls state)
  | .list items =>
    let (graph, values) := Fresh.allocAll graph items
    graph.alloc (.list values)
  | .tuple items =>
    let (graph, values) := Fresh.allocAll graph items
    graph.alloc (.tuple values)
  | .dict entries =>
    let (graph, values) := Fresh.allocEntries graph entries
    graph.alloc (.dict values)

def Fresh.allocAll (graph : Graph) : List Fresh → Graph × List Value
  | [] => (graph, [])
  | item :: rest =>
    let (graph, v) := Fresh.alloc graph item
    let (graph, vs) := Fresh.allocAll graph rest
    (graph, v :: vs)

def Fresh.allocEntries (graph : Graph) : List (Scalar × Fresh) → Graph × List (Value × Value)
  | [] => (graph, [])
  | (key, item) :: rest =>
    let (graph, v) := Fresh.alloc graph item
    let (graph, vs) := Fresh.allocEntries graph rest
    (graph, (.scalar key, v) :: vs)

end

/-- Put the arguments of a recipe into a graph. -/
def FreshRecipe.alloc (graph : Graph) (recipe : FreshRecipe) : Graph × Recipe :=
  let (graph, args) := match recipe.args with
    | none => (graph, none)
    | some items => let (graph, vs) := Fresh.allocAll graph items; (graph, some vs)
  let (graph, values) := Fresh.allocAll graph (recipe.kwargs.map Prod.snd)
  (graph, ⟨recipe.module, recipe.qualname, args, (recipe.kwargs.map Prod.fst).zip values⟩)

def Recipe.values (recipe : Recipe) : List Value :=
  recipe.args.getD [] ++ recipe.kwargs.map Prod.snd

/-! ## Known classes -/

namespace Class

def known (module qualname : String) (ancestors : List (String × String) := []) : Class :=
  ⟨⟨module, qualname⟩, .known ⟨module, qualname⟩ :: ancestors.map fun (m, q) => .known ⟨m, q⟩⟩

def url : Class := known "httpx" "URL"
def queryParams : Class := known "httpx" "QueryParams"
def headers : Class := known "httpx" "Headers"
def request : Class := known "httpx" "Request"
def response : Class := known "httpx" "Response"
def formData : Class := known "starlette.datastructures" "FormData"
def bytearray : Class := known "builtins" "bytearray"
def memoryview : Class := known "builtins" "memoryview"
def date : Class := known "datetime" "date"
def datetime : Class := known "datetime" "datetime" [("datetime", "date")]
def time : Class := known "datetime" "time"
def timedelta : Class := known "datetime" "timedelta"
def timezone : Class := known "datetime" "timezone" [("datetime", "tzinfo")]
def decimal : Class := known "decimal" "Decimal"
def uuid : Class := known "uuid" "UUID"
def fraction : Class := known "fractions" "Fraction"
def purePosixPath : Class := known "pathlib" "PurePosixPath" [("pathlib", "PurePath")]
def pureWindowsPath : Class := known "pathlib" "PureWindowsPath" [("pathlib", "PurePath")]
def posixPath : Class :=
  known "pathlib" "PosixPath"
    [("pathlib", "Path"), ("pathlib", "PurePosixPath"), ("pathlib", "PurePath")]
def orderedDict : Class := known "collections" "OrderedDict" [("builtins", "dict")]
def settled : Class := known "macrobuild.services.macros.sandbox" "Settled"
def enumBase : ClassKey := .known ⟨"enum", "Enum"⟩

end Class

/-! ## Reducers for known classes -/

namespace Reducer

def str (text : Text) : Fresh := .value (.scalar (.str text))

def int (n : Int) : Fresh := .value (.scalar (.int n))

def bytes (b : List UInt8) : Fresh := .value (.scalar (.bytes b))

def textPairs (pairs : List (Text × Text)) : Fresh :=
  .list (pairs.map fun (a, b) => .tuple [str a, str b])

def valuePairs (pairs : List (Value × Value)) : Fresh :=
  .list (pairs.map fun (a, b) => .tuple [.value a, .value b])

def construct (cls : Class) (args : List Fresh) (kwargs : List (String × Fresh) := []) :
    Except SerializeError (Option FreshRecipe) :=
  .ok (some ⟨cls.name.module, cls.name.qualname, some args, kwargs⟩)

def responseFields (r : Response) (content : List UInt8) : List (String × Fresh) :=
  [("headers", textPairs (r.headers.without bodyFields)), ("content", bytes content)] ++
    (if r.reason.isEmpty then []
      else [("extensions", Fresh.dict [(.str (chars "reason_phrase"), bytes r.reason)])]) ++
    (match r.request with
      | none => []
      | some request => [("request", Fresh.value request)])

/-- The reducer for instances of a known class or of a class that descends from one. -/
def standard : Reducer := fun cls state =>
  match state with
  | .url u => construct Class.url [str u.text]
  | .queryParams pairs => construct Class.queryParams [textPairs pairs]
  | .headers h => construct Class.headers [textPairs h.items]
  | .request r =>
    match r.body with
    | .read content =>
      construct Class.request [str r.method, .inst Class.url (.url r.url)]
        [("headers", textPairs (r.headers.without bodyFields)), ("content", bytes content)]
    | _ => .error .requestNotRead
  | .response r =>
    match r.body with
    | .read content => construct Class.response [.value r.status] (responseFields r content)
    | _ => .error .responseNotRead
  | .formData pairs => construct Class.formData [valuePairs pairs]
  | .bytearray b => construct Class.bytearray [bytes b]
  | .memoryview b writable =>
    construct Class.memoryview
      [if writable then .inst Class.bytearray (.bytearray b) else bytes b]
  | .datetime t => fromIso cls t.text
  | .date d => fromIso cls d.text
  | .time t => fromIso cls t.text
  | .timedelta d => construct Class.timedelta [int d.days, int d.seconds, int d.microseconds]
  | .decimal d => construct Class.decimal [str d.text]
  | .uuid u => construct Class.uuid [str u.text]
  | .fraction num den => construct Class.fraction [int num, int den]
  | .path p => construct cls [str p.text]
  | .ordered entries => construct Class.orderedDict [valuePairs entries]
  | .enumMember name reachability =>
    if Text.containsText cls.name.qualname.toList (chars "<locals>") || reachability != .found then
      .ok none
    else
      .ok (some ⟨cls.name.module, cls.name.qualname ++ "." ++ String.ofList name, none, []⟩)
  | .rebuilt recipe =>
    .ok (some ⟨recipe.module, recipe.qualname, recipe.args.map (·.map .value),
      recipe.kwargs.map fun (name, v) => (name, .value v)⟩)
  | _ => .ok none
where
  /-- Temporal values are read back by their own class. -/
  fromIso (cls : Class) (text : Text) : Except SerializeError (Option FreshRecipe) :=
    .ok (some ⟨cls.name.module, cls.name.qualname ++ ".fromisoformat", some [str text], []⟩)

end Reducer

namespace Registry

def standardKeys : List ClassKey :=
  [Class.url, Class.queryParams, Class.headers, Class.request, Class.response, Class.formData,
    Class.bytearray, Class.memoryview, Class.datetime, Class.date, Class.time, Class.timedelta,
    Class.decimal, Class.uuid, Class.fraction, Class.orderedDict].map
      (fun cls => ClassKey.known cls.name) ++
  [.known ⟨"pathlib", "PurePath"⟩, Class.enumBase]

/-- The registry that expansion uses. -/
def standard : Registry := empty.register standardKeys Reducer.standard

end Registry

/-! ## Lineages -/

namespace Class

def nextKey (lists : List (List ClassKey)) : Option ClassKey :=
  lists.findSome? fun l => match l with
    | [] => none
    | key :: _ => if lists.any (fun other => other.tail.contains key) then none else some key

def merge : Nat → List (List ClassKey) → Option (List ClassKey)
  | 0, _ => some []
  | fuel + 1, lists =>
    let lists := lists.filter (!·.isEmpty)
    if lists.isEmpty then some []
    else match nextKey lists with
      | none => none
      | some key =>
        (merge fuel (lists.map fun l => if l.head? = some key then l.tail else l)).map (key :: ·)

def derive (number : Nat) (name : ClassName) (bases : List Class) : Option Class :=
  let lists := bases.map (·.lineage) ++ [bases.filterMap (·.lineage.head?)]
  (merge (1 + (lists.map List.length).sum) lists).map fun l => ⟨name, .own number :: l⟩

end Class

end MacroExpand
