import MacroExpand.Text.Codec
import MacroExpand.Web.Url
import MacroExpand.Value.Uuid
import MacroExpand.Data.Inflate
import MacroExpand.Text.Case

/-!
# Fields of messages

Header fields and query parameters, and the codings of content that header fields name.
-/

set_option autoImplicit false

namespace MacroExpand

/-!
## Header fields and query parameters

Header names are compared and listed in lower case.  Query parameters are grouped by name in the
order in which the names first appear.
-/

structure Headers where
  fields : List (Text × Text)
  deriving DecidableEq, Repr, Inhabited

namespace Headers

def ofPairs (pairs : List (Text × Text)) : Except CodecFault Headers := do
  for (name, value) in pairs do
    let _ ← Codec.ascii.encode name
    let _ ← Codec.ascii.encode value
  return ⟨pairs⟩

def items (h : Headers) : List (Text × Text) :=
  h.fields.map fun (name, value) => (name.map Char.toLower, value)

def has (h : Headers) (name : Text) : Bool := h.items.any fun (n, _) => n == name

def get? (h : Headers) (name : Text) : Option Text :=
  let found := (h.items.filter fun (n, _) => n == name).map Prod.snd
  if found.isEmpty then none else some (Text.joinWith [',', ' '] found)

/-- Names in lower case with their values, except that values nobody should see are hidden. -/
def guardedItems (h : Headers) : List (Text × Text) :=
  h.items.map fun (name, value) =>
    (name, if name == chars "authorization" || name == chars "proxy-authorization"
      then chars "[secure]" else value)

def without (h : Headers) (dropped : List Text) : List (Text × Text) :=
  h.items.filter fun (name, _) => !dropped.contains name

def withDefaults (h : Headers) (extra : List (Text × Text)) : Headers :=
  ⟨h.fields ++ extra.filter fun (name, _) => !h.has (name.map Char.toLower)⟩

end Headers

def bodyFields : List Text :=
  [chars "content-encoding", chars "content-length", chars "transfer-encoding"]

def percentDecode : Text → List UInt8
  | [] => []
  | '%' :: a :: b :: rest =>
    match hexValue a, hexValue b with
    | some x, some y => (x * 16 + y).toUInt8 :: percentDecode rest
    | _, _ => 37 :: percentDecode (a :: b :: rest)
  | c :: rest => String.utf8EncodeChar c ++ percentDecode rest

def queryDecode (text : Text) : Text :=
  utf8DecodeLoosely 0 [] (percentDecode (text.map fun c => if c == '+' then ' ' else c))

def queryPairs (text : Text) : List (Text × Text) :=
  ((text.splitOn '&').filter (!·.isEmpty)).map fun part =>
    (queryDecode (part.takeWhile (· != '=')), queryDecode ((part.dropWhile (· != '=')).drop 1))

def groupPairs {α : Type} (pairs : List (Text × α)) : List (Text × α) :=
  (pairs.map Prod.fst).eraseDups.flatMap fun name => pairs.filter fun (n, _) => n == name

def queryText (pairs : List (Text × Text)) : Text :=
  let safe := fun c => Url.isUnreserved c
  let part := fun (t : Text) => t.flatMap fun c =>
    if c == ' ' then ['+'] else if safe c then [c] else Url.percent c
  Text.joinWith ['&'] (pairs.map fun (n, v) => part n ++ '=' :: part v)

/-!
## Codings of content

The body of a response may be coded several times over, as its fields say; reading undoes the codings
from the last one on.  Codings that are not known are passed over.
-/

inductive ContentCoding where
  | gzip
  | deflate
  deriving DecidableEq, Repr, Inhabited

namespace ContentCoding

def named? (name : Text) : Option ContentCoding :=
  match String.ofList (Text.trim name).lower with
  | "gzip" => some .gzip
  | "deflate" => some .deflate
  | _ => none

/-- How data of a coding is wrapped.  Deflated data should have a short wrapping; if its first chunk
cannot be read so, it is taken to have none. -/
def wrapping (first : List UInt8) : ContentCoding → Wrapping
  | .gzip => .long
  | .deflate =>
    match inflate .short first with
    | .ok _ => .short
    | .error _ => .bare

/-- Undo a coding chunk by chunk; `seen` holds the chunks before and `known` what they gave. -/
def expandFrom (w : Wrapping) (seen : List UInt8) (known : Nat) :
    List (List UInt8) → Except String (List (List UInt8))
  | [] => .ok []
  | chunk :: rest => do
      let seen := seen ++ chunk
      let output ← inflate w seen
      return output.drop known :: (← expandFrom w seen output.length rest)

def expand (coding : ContentCoding) (chunks : List (List UInt8)) :
    Except String (List (List UInt8)) :=
  expandFrom (coding.wrapping (chunks.headD [])) [] 0 chunks

end ContentCoding

def Headers.codings (h : Headers) : List ContentCoding :=
  ((h.items.filter fun (name, _) => name == chars "content-encoding").flatMap fun (_, value) =>
    value.splitOn ',').filterMap ContentCoding.named?

def Headers.decodeContent (h : Headers) (chunks : List (List UInt8)) :
    Except String (List UInt8) :=
  (h.codings.reverse.foldlM (fun chunks (coding : ContentCoding) => coding.expand chunks) chunks).map List.flatten

end MacroExpand
