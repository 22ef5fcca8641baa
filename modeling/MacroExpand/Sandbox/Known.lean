import MacroExpand.Sandbox.Cell

/-!
# Known classes and functions

The first cells of every memory hold the known classes and the known functions, in the order of the
two tables below, so that a known name always means the same cell.
-/

set_option autoImplicit false

namespace MacroExpand

namespace Sandbox

/-- A known class: the key it is found under, its module, its name there and the keys of the classes
it directly descends from. -/
structure KnownClass where
  key : String
  module : String
  name : String
  bases : List String

def plainClasses : List (String × String) := [
  ("type", "object"), ("int", "object"), ("bool", "int"), ("float", "object"),
  ("complex", "object"), ("str", "object"), ("bytes", "object"), ("bytearray", "object"),
  ("memoryview", "object"), ("list", "object"), ("tuple", "object"), ("dict", "object"),
  ("set", "object"), ("frozenset", "object"), ("range", "object"), ("slice", "object"),
  ("NoneType", "object"), ("ellipsis", "object"), ("NotImplementedType", "object"),
  ("function", "object"), ("builtin_function_or_method", "object"), ("method", "object"),
  ("method_descriptor", "object"), ("wrapper_descriptor", "object"), ("method-wrapper", "object"),
  ("generator", "object"), ("coroutine", "object"), ("async_generator", "object"),
  ("module", "object"), ("mappingproxy", "object"), ("list_iterator", "object"),
  ("tuple_iterator", "object"), ("str_ascii_iterator", "object"), ("str_iterator", "object"),
  ("bytes_iterator", "object"), ("dict_keyiterator", "object"), ("dict_valueiterator", "object"),
  ("dict_itemiterator", "object"), ("set_iterator", "object"), ("range_iterator", "object"),
  ("list_reverseiterator", "object"), ("callable_iterator", "object"), ("iterator", "object"),
  ("bytearray_iterator", "object"), ("dict_reversekeyiterator", "object"),
  ("dict_reversevalueiterator", "object"), ("dict_reverseitemiterator", "object"),
  ("longrange_iterator", "object"), ("memory_iterator", "object"), ("zip", "object"),
  ("map", "object"), ("filter", "object"), ("enumerate", "object"), ("reversed", "object"),
  ("dict_keys", "object"), ("dict_values", "object"), ("dict_items", "object"),
  ("property", "object"), ("staticmethod", "object"), ("classmethod", "object"),
  ("super", "object"),
  ("BaseException", "object"), ("Exception", "BaseException"),
  ("GeneratorExit", "BaseException"), ("KeyboardInterrupt", "BaseException"),
  ("SystemExit", "BaseException"),
  ("ArithmeticError", "Exception"), ("FloatingPointError", "ArithmeticError"),
  ("OverflowError", "ArithmeticError"), ("ZeroDivisionError", "ArithmeticError"),
  ("AssertionError", "Exception"), ("AttributeError", "Exception"), ("BufferError", "Exception"),
  ("EOFError", "Exception"), ("ImportError", "Exception"),
  ("ModuleNotFoundError", "ImportError"), ("LookupError", "Exception"),
  ("IndexError", "LookupError"), ("KeyError", "LookupError"), ("MemoryError", "Exception"),
  ("NameError", "Exception"), ("UnboundLocalError", "NameError"), ("OSError", "Exception"),
  ("BlockingIOError", "OSError"), ("ChildProcessError", "OSError"),
  ("ConnectionError", "OSError"), ("BrokenPipeError", "ConnectionError"),
  ("ConnectionAbortedError", "ConnectionError"), ("ConnectionRefusedError", "ConnectionError"),
  ("ConnectionResetError", "ConnectionError"), ("FileExistsError", "OSError"),
  ("FileNotFoundError", "OSError"), ("InterruptedError", "OSError"),
  ("IsADirectoryError", "OSError"), ("NotADirectoryError", "OSError"),
  ("PermissionError", "OSError"), ("ProcessLookupError", "OSError"), ("TimeoutError", "OSError"),
  ("ReferenceError", "Exception"), ("RuntimeError", "Exception"),
  ("NotImplementedError", "RuntimeError"), ("RecursionError", "RuntimeError"),
  ("StopAsyncIteration", "Exception"), ("StopIteration", "Exception"),
  ("SyntaxError", "Exception"), ("IndentationError", "SyntaxError"),
  ("TabError", "IndentationError"), ("SystemError", "Exception"), ("TypeError", "Exception"),
  ("ValueError", "Exception"), ("UnicodeError", "ValueError"),
  ("UnicodeDecodeError", "UnicodeError"), ("UnicodeEncodeError", "UnicodeError"),
  ("UnicodeTranslateError", "UnicodeError"), ("Warning", "Exception"),
  ("BytesWarning", "Warning"), ("DeprecationWarning", "Warning"), ("EncodingWarning", "Warning"),
  ("FutureWarning", "Warning"), ("ImportWarning", "Warning"),
  ("PendingDeprecationWarning", "Warning"), ("ResourceWarning", "Warning"),
  ("RuntimeWarning", "Warning"), ("SyntaxWarning", "Warning"), ("UnicodeWarning", "Warning"),
  ("UserWarning", "Warning")]

def moduleClasses : List KnownClass := [
  ⟨"_Feature", "__future__", "_Feature", ["object"]⟩,
  ⟨"BaseExceptionGroup", "builtins", "BaseExceptionGroup", ["BaseException"]⟩,
  ⟨"ExceptionGroup", "builtins", "ExceptionGroup", ["BaseExceptionGroup", "Exception"]⟩,
  ⟨"GenericAlias", "types", "GenericAlias", ["object"]⟩,
  ⟨"UnionType", "types", "UnionType", ["object"]⟩,
  ⟨"CancelledError", "asyncio.exceptions", "CancelledError", ["BaseException"]⟩,
  ⟨"JSONDecodeError", "json.decoder", "JSONDecodeError", ["ValueError"]⟩,
  ⟨"TOMLDecodeError", "tomllib", "TOMLDecodeError", ["ValueError"]⟩,
  ⟨"MacroError", "macrobuild.core.errors", "MacroError", ["Exception"]⟩,
  ⟨"NamingError", "macrobuild.core.errors", "NamingError", ["MacroError"]⟩,
  ⟨"ExecutionError", "macrobuild.core.errors", "ExecutionError", ["MacroError"]⟩,
  ⟨"SerializationError", "macrobuild.core.errors", "SerializationError", ["MacroError"]⟩,
  ⟨"MacroCache", "macrobuild.services.macros.cache", "MacroCache", ["object"]⟩,
  ⟨"MacroEngine", "macrobuild.services.macros.engine", "MacroEngine", ["object"]⟩,
  ⟨"TransformResult", "macrobuild.services.macros.engine", "TransformResult", ["object"]⟩,
  ⟨"SerializedResult", "macrobuild.services.macros.context", "SerializedResult", ["object"]⟩,
  ⟨"SourceMap", "macrobuild.services.source.generator", "SourceMap", ["object"]⟩,
  ⟨"TokenError", "tokenize", "TokenError", ["Exception"]⟩,
  ⟨"HTTPError", "httpx", "HTTPError", ["Exception"]⟩,
  ⟨"HTTPStatusError", "httpx", "HTTPStatusError", ["HTTPError"]⟩,
  ⟨"RequestError", "httpx", "RequestError", ["HTTPError"]⟩,
  ⟨"DecodingError", "httpx", "DecodingError", ["RequestError"]⟩,
  ⟨"TooManyRedirects", "httpx", "TooManyRedirects", ["RequestError"]⟩,
  ⟨"TransportError", "httpx", "TransportError", ["RequestError"]⟩,
  ⟨"UnsupportedProtocol", "httpx", "UnsupportedProtocol", ["TransportError"]⟩,
  ⟨"NetworkError", "httpx", "NetworkError", ["TransportError"]⟩,
  ⟨"ConnectError", "httpx", "ConnectError", ["NetworkError"]⟩,
  ⟨"InvalidURL", "httpx", "InvalidURL", ["Exception"]⟩,
  ⟨"StreamError", "httpx", "StreamError", ["RuntimeError"]⟩,
  ⟨"StreamConsumed", "httpx", "StreamConsumed", ["StreamError"]⟩,
  ⟨"RequestNotRead", "httpx", "RequestNotRead", ["StreamError"]⟩,
  ⟨"ResponseNotRead", "httpx", "ResponseNotRead", ["StreamError"]⟩,
  ⟨"date", "datetime", "date", ["object"]⟩,
  ⟨"datetime", "datetime", "datetime", ["date"]⟩,
  ⟨"time", "datetime", "time", ["object"]⟩,
  ⟨"timedelta", "datetime", "timedelta", ["object"]⟩,
  ⟨"tzinfo", "datetime", "tzinfo", ["object"]⟩,
  ⟨"timezone", "datetime", "timezone", ["tzinfo"]⟩,
  ⟨"IsoCalendarDate", "datetime", "IsoCalendarDate", ["tuple"]⟩,
  ⟨"stat_result", "os", "stat_result", ["tuple"]⟩,
  ⟨"PurePath", "pathlib", "PurePath", ["object"]⟩,
  ⟨"PurePosixPath", "pathlib", "PurePosixPath", ["PurePath"]⟩,
  ⟨"PureWindowsPath", "pathlib", "PureWindowsPath", ["PurePath"]⟩,
  ⟨"Path", "pathlib", "Path", ["PurePath"]⟩,
  ⟨"PosixPath", "pathlib", "PosixPath", ["Path", "PurePosixPath"]⟩,
  ⟨"URL", "httpx", "URL", ["object"]⟩,
  ⟨"QueryParams", "httpx", "QueryParams", ["object"]⟩,
  ⟨"Headers", "httpx", "Headers", ["object"]⟩,
  ⟨"Request", "httpx", "Request", ["object"]⟩,
  ⟨"Response", "httpx", "Response", ["object"]⟩,
  ⟨"Client", "httpx", "Client", ["object"]⟩,
  ⟨"AsyncClient", "httpx", "AsyncClient", ["object"]⟩,
  ⟨"FormData", "starlette.datastructures", "FormData", ["object"]⟩,
  ⟨"Event", "asyncio.locks", "Event", ["object"]⟩,
  ⟨"Timeout", "asyncio.timeouts", "Timeout", ["object"]⟩,
  ⟨"Future", "_asyncio", "Future", ["object"]⟩,
  ⟨"OrderedDict", "collections", "OrderedDict", ["dict"]⟩,
  ⟨"Decimal", "decimal", "Decimal", ["object"]⟩,
  ⟨"Fraction", "fractions", "Fraction", ["object"]⟩,
  ⟨"UUID", "uuid", "UUID", ["object"]⟩]

def classTable : List KnownClass :=
  ⟨"object", "builtins", "object", []⟩ ::
    (plainClasses.map fun (name, base) => ⟨name, "builtins", name, [base]⟩) ++ moduleClasses

def classCell (key : String) : Nat := classTable.findIdx fun c => c.key == key

def lineageOf : Nat → String → List String
  | 0, _ => []
  | fuel + 1, key =>
    match classTable.find? fun c => c.key == key with
    | none => []
    | some c => key :: (c.bases.flatMap (lineageOf fuel)).reverse.eraseDups.reverse

def plainFunctions : List String := [
  "abs", "all", "any", "ascii", "bin", "callable", "chr", "delattr", "dir", "divmod", "format",
  "getattr", "globals", "hasattr", "hash", "hex", "id", "isinstance", "issubclass", "iter", "len",
  "locals", "max", "min", "next", "oct", "ord", "pow", "print", "repr", "round", "setattr", "sorted",
  "sum", "vars", "__import__", "open", "input", "eval", "exec", "compile", "__build_class__",
  "breakpoint", "aiter", "anext"]

def numberFunctions : List String := [
  "sqrt", "floor", "ceil", "trunc", "fabs", "factorial", "gcd", "lcm", "isqrt", "pow", "exp",
  "exp2", "expm1", "log", "log2", "log10", "log1p", "sin", "cos", "tan", "asin", "acos", "atan",
  "atan2", "sinh", "cosh", "tanh", "asinh", "acosh", "atanh", "hypot", "dist", "isnan", "isinf",
  "isfinite", "isclose", "copysign", "fmod", "remainder", "modf", "frexp", "ldexp", "nextafter",
  "ulp", "cbrt", "prod", "fsum", "comb", "perm", "radians", "degrees", "gamma", "lgamma", "erf",
  "erfc"]

def otherFunctions : List (String × String) := [
  ("now", "_now"), ("monotonic", "monotonic"), ("sleep", "sleep"),
  ("require", "ScopedImporter.require"), ("import_module", "ScopedImporter.import_module"),
  ("fetch", "fetch"), ("timeout", "timeout"), ("log", "Logger.info"),
  ("importlib.import_module", "import_module"),
  ("json.loads", "loads"), ("json.dumps", "dumps"), ("tomllib.loads", "loads"),
  ("os.path.join", "join"), ("os.path.basename", "basename"), ("os.path.dirname", "dirname"),
  ("os.path.splitext", "splitext"), ("os.path.split", "split"), ("os.path.exists", "exists"),
  ("os.path.isfile", "isfile"), ("os.path.isdir", "isdir"), ("os.path.isabs", "isabs"),
  ("os.path.normpath", "normpath"), ("os.path.abspath", "abspath"),
  ("os.path.realpath", "realpath"), ("os.path.relpath", "relpath"),
  ("os.path.commonprefix", "commonprefix"), ("os.path.commonpath", "commonpath"),
  ("os.path.getsize", "getsize"), ("os.path.islink", "islink"), ("os.path.lexists", "lexists"),
  ("os.path.splitdrive", "splitdrive"), ("os.path.normcase", "normcase"), ("os.fspath", "fspath"),
  ("os.getcwd", "getcwd"), ("os.listdir", "listdir"),
  ("asyncio.sleep", "sleep"), ("asyncio.gather", "gather"),
  ("textwrap.dedent", "dedent"), ("time.monotonic", "monotonic"),
  ("functools.reduce", "reduce"), ("os.getenv", "getenv"), ("operator.getitem", "getitem"),
  ("object.__setattr__", "__setattr__"), ("object.__delattr__", "__delattr__"),
  ("object.__getattribute__", "__getattribute__"), ("object.__new__", "__new__")]

def functionTable : List (String × String) :=
  (plainFunctions.map fun n => (n, n)) ++ (numberFunctions.map fun n => ("math." ++ n, n)) ++
    otherFunctions

def functionCell (key : String) : Nat :=
  classTable.length + functionTable.findIdx fun f => f.1 == key

def singletonCell (k : Nat) : Nat := classTable.length + functionTable.length + k

def utcCell : Nat := singletonCell 0

def notImplementedCell : Nat := singletonCell 1

def emptyTupleCell : Nat := singletonCell 2

def sharedStoreCell : Nat := singletonCell 3

def newTuple (items : List Value) : Eval Value :=
  if items.isEmpty then return .ref emptyTupleCell else alloc (.tuple items)

def startingHeap : Array Cell :=
  let classes : List Cell := classTable.map fun (c : KnownClass) =>
    .cls { name := c.name, qualname := c.name, module := c.module
           lineage := (lineageOf 12 c.key).map classCell, bases := c.bases.map classCell }
  let functions : List Cell := functionTable.map fun (f : String × String) => .native f.1
  let singles : List Cell := [.timezone ⟨0⟩ none, .known "NotImplementedType" (.opaqueObject []),
    .tuple [], .store {}]
  (classes ++ functions ++ singles).toArray

def classValue (key : String) : Value := .ref (classCell key)

def plainNames : List (String × Value) := [
  ("IOError", classValue "OSError"), ("EnvironmentError", classValue "OSError"),
  ("NotImplemented", .ref notImplementedCell), ("Ellipsis", .scalar .ellipsis),
  ("__debug__", ofBool true), ("True", ofBool true), ("False", ofBool false), ("None", nil)]

def hiddenClasses : List String := [
  "NoneType", "ellipsis", "NotImplementedType", "function", "builtin_function_or_method", "method",
  "method_descriptor", "generator", "coroutine", "async_generator", "module", "mappingproxy",
  "list_iterator", "tuple_iterator", "str_ascii_iterator", "str_iterator", "bytes_iterator", "dict_keyiterator",
  "dict_valueiterator", "dict_itemiterator", "set_iterator", "range_iterator",
  "list_reverseiterator", "callable_iterator", "iterator", "bytearray_iterator",
  "dict_reversekeyiterator", "dict_reversevalueiterator", "dict_reverseitemiterator",
  "longrange_iterator", "memory_iterator", "wrapper_descriptor", "method-wrapper", "dict_keys",
  "dict_values", "dict_items"]

def plainValue? (name : String) : Option Value :=
  if !hiddenClasses.contains name &&
      classTable.any fun (c : KnownClass) => c.key == name && c.module == "builtins"
  then some (classValue name)
  else if plainFunctions.contains name then some (.ref (functionCell name))
  else lookup plainNames name

/-! ## Classes of values -/

def scalarClass : Scalar → String
  | .nil => "NoneType"
  | .bool _ => "bool"
  | .int _ => "int"
  | .float _ => "float"
  | .complex .. => "complex"
  | .str _ | .codes _ => "str"
  | .bytes _ => "bytes"
  | .ellipsis => "ellipsis"

def cellClass : Cell → Nat
  | .list _ => classCell "list"
  | .tuple _ => classCell "tuple"
  | .dict _ => classCell "dict"
  | .set _ => classCell "set"
  | .frozenset _ => classCell "frozenset"
  | .cls _ => classCell "type"
  | .function _ => classCell "function"
  | .native _ | .nativeMethod .. => classCell "builtin_function_or_method"
  | .method .. => classCell "method"
  | .unbound .. => classCell "method_descriptor"
  | .object cls _ _ => cls
  | .exception e => e.cls
  | .module .. => classCell "module"
  | .scope _ => classCell "object"
  | .iterator cls _ => classCell cls
  | .listIterator .. => classCell "list_iterator"
  | .listReverse .. => classCell "list_reverseiterator"
  | .tableIterator cls _ _ _ => classCell cls
  | .indexIterator .. => classCell "iterator"
  | .callIterator .. => classCell "callable_iterator"
  | .mapped .. => classCell "map"
  | .filtered .. => classCell "filter"
  | .zipped .. => classCell "zip"
  | .numbered .. => classCell "enumerate"
  | .generator f _ _ => classCell (if f.isAsync then "async_generator" else "generator")
  | .coroutine .. => classCell "coroutine"
  | .range .. => classCell "range"
  | .slice .. => classCell "slice"
  | .environment _ => classCell "mappingproxy"
  | .view cls _ => classCell cls
  | .timezone .. => classCell "timezone"
  | .event _ => classCell "Event"
  | .limit _ => classCell "Timeout"
  | .descriptor cls _ => classCell cls
  | .property .. => classCell "property"
  | .parametrized .. => classCell "GenericAlias"
  | .union _ => classCell "UnionType"
  | .superView .. => classCell "super"
  | .store _ => classCell "MacroCache"
  | .engine .. => classCell "MacroEngine"
  | .known cls _ => classCell cls

def classOf (v : Value) : Eval Nat := do
  match v with
  | .scalar s => return classCell (scalarClass s)
  | .ref i => return cellClass (← cellAt i)

def classData (cls : Nat) : Eval ClassData := do
  match (← cellAt cls) with
  | .cls data => return data
  | _ => return { name := "object", qualname := "object", module := "builtins", lineage := [cls] }

def ClassData.shownName (c : ClassData) : String :=
  if !c.own && ["datetime", "collections", "decimal"].contains c.module then c.module ++ "." ++ c.name
  else c.name

def typeName (v : Value) : Eval String := do
  return (← classData (← classOf v)).shownName

def descends (cls ancestor : Nat) : Eval Bool := do
  return (← classData cls).lineage.contains ancestor

def isKnown (v : Value) (key : String) : Eval Bool := do
  descends (← classOf v) (classCell key)

/-! ## Raising -/

def newExceptionOf (cls : Nat) (args : List Value) (attributes : List (String × Value)) :
    Eval Value := do
  alloc (.exception { cls, args, attributes, context := (← get).handled.headD nil })

def raiseWith {α : Type} (key : String) (args : List Value) : Eval α := do
  throw (.raised (← newExceptionOf (classCell key) args []))

def raise {α : Type} (key message : String) : Eval α := raiseWith key [ofString message]

def typeError {α : Type} (message : String) : Eval α := raise "TypeError" message

def valueError {α : Type} (message : String) : Eval α := raise "ValueError" message

def raiseFile {α : Type} (e : FileError) : Eval α := do
  throw (.raised (← newExceptionOf (classCell e.fault.name)
    [ofNat e.fault.code, ofString e.fault.reason] [("filename", ofText e.path)]))

def noAttribute {α : Type} (v : Value) (name : String) : Eval α := do
  raise "AttributeError" ("'" ++ (← typeName v) ++ "' object has no attribute '" ++ name ++ "'")

end Sandbox

end MacroExpand
