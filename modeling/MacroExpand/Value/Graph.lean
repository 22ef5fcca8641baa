import MacroExpand.Value.Scalar
import MacroExpand.Value.Calendar
import MacroExpand.Value.ExactDecimal
import MacroExpand.Value.Uuid
import MacroExpand.Value.PathText
import MacroExpand.Web.Url
import MacroExpand.Web.Fields

/-!
# Values as an object graph

A value is a scalar or a reference to an object of a graph.  Objects are the five plain containers
and instances of classes; they may be shared and may form cycles.
-/

set_option autoImplicit false

namespace MacroExpand

/-- A scalar, or an object by its number in the graph. -/
inductive Value where
  | scalar (s : Scalar)
  | ref (object : Nat)
  deriving DecidableEq, Repr, Inhabited

structure ClassName where
  module : String
  qualname : String
  deriving DecidableEq, Repr, Inhabited

/-- The identity of a class: a known one, or one of the program's own by number. -/
inductive ClassKey where
  | known (name : ClassName)
  | own (number : Nat)
  deriving DecidableEq, Repr, Inhabited

/-- A class: its name and its lineage, nearest class first, itself included. -/
structure Class where
  name : ClassName
  lineage : List ClassKey
  deriving DecidableEq, Repr, Inhabited

/-- How a class is found by importing its module. -/
inductive Reachability where
  | found
  | noModule
  | noAttribute
  deriving DecidableEq, Repr, Inhabited

inductive Body where
  /-- The body is at hand. -/
  | read (bytes : List UInt8)
  /-- The body arrives in chunks that nobody has read. -/
  | waiting (chunks : List (List UInt8)) (asynchronous : Bool)
  /-- The chunks were read by somebody else. -/
  | consumed
  deriving DecidableEq, Repr, Inhabited

structure Request where
  method : Text
  url : Url
  headers : Headers
  body : Body
  deriving DecidableEq, Repr, Inhabited

structure Response where
  status : Value
  headers : Headers
  body : Body
  reason : List UInt8
  request : Option Value
  deriving DecidableEq, Repr, Inhabited

/-- The call that rebuilds an object: `args = none` means the name itself, without a call. -/
structure Recipe where
  module : String
  qualname : String
  args : Option (List Value)
  kwargs : List (String × Value)
  deriving DecidableEq, Repr, Inhabited

/-- What an instance holds. -/
inductive State where
  /-- Nothing that matters to serialization; `contents` are the elements of a container. -/
  | opaqueObject (contents : List Value)
  /-- A function, a method or a built-in function. -/
  | callable (qualname : Text)
  /-- An awaitable that will give this value. -/
  | pending (value : Value)
  | ordered (entries : List (Value × Value))
  /-- An object that carries the recipe to rebuild it. -/
  | rebuilt (recipe : Recipe)
  | irreducible
  | enumMember (name : Text) (reachability : Reachability)
  | bytearray (bytes : List UInt8)
  | memoryview (bytes : List UInt8) (writable : Bool)
  | datetime (value : DateTime)
  | date (value : Date)
  | time (value : TimeOfDay)
  | timedelta (value : Duration)
  | decimal (value : ExactDecimal)
  | uuid (value : Uuid)
  | fraction (num : Int) (den : Nat)
  | path (value : PathText)
  | url (value : Url)
  | queryParams (pairs : List (Text × Text))
  | headers (value : Headers)
  | formData (pairs : List (Value × Value))
  | request (value : Request)
  | response (value : Response)
  deriving DecidableEq, Repr, Inhabited

/-- An object of a graph. -/
inductive Object where
  | list (items : List Value)
  | tuple (items : List Value)
  | dict (entries : List (Value × Value))
  | set (items : List Value)
  | frozenset (items : List Value)
  | inst (cls : Class) (state : State)
  deriving DecidableEq, Repr, Inhabited

/-- The objects that values refer to. -/
abbrev Graph := Array Object

namespace Graph

def alloc (graph : Graph) (object : Object) : Graph × Value :=
  (graph.push object, .ref graph.size)

end Graph

end MacroExpand
