import MacroExpand.Value.Graph
import MacroExpand.Web.Fields

/-!
# Requests and responses

A message gets the fields that its body implies, unless they are given; a request also names its
host, in front of all other fields.
-/

set_option autoImplicit false

namespace MacroExpand

/-! ## Statuses of responses -/

def statusRows : List (Nat × String × String) := [
  (100, "CONTINUE", "Continue"),
  (101, "SWITCHING_PROTOCOLS", "Switching Protocols"),
  (102, "PROCESSING", "Processing"),
  (103, "EARLY_HINTS", "Early Hints"),
  (200, "OK", "OK"),
  (201, "CREATED", "Created"),
  (202, "ACCEPTED", "Accepted"),
  (203, "NON_AUTHORITATIVE_INFORMATION", "Non-Authoritative Information"),
  (204, "NO_CONTENT", "No Content"),
  (205, "RESET_CONTENT", "Reset Content"),
  (206, "PARTIAL_CONTENT", "Partial Content"),
  (207, "MULTI_STATUS", "Multi-Status"),
  (208, "ALREADY_REPORTED", "Already Reported"),
  (226, "IM_USED", "IM Used"),
  (300, "MULTIPLE_CHOICES", "Multiple Choices"),
  (301, "MOVED_PERMANENTLY", "Moved Permanently"),
  (302, "FOUND", "Found"),
  (303, "SEE_OTHER", "See Other"),
  (304, "NOT_MODIFIED", "Not Modified"),
  (305, "USE_PROXY", "Use Proxy"),
  (307, "TEMPORARY_REDIRECT", "Temporary Redirect"),
  (308, "PERMANENT_REDIRECT", "Permanent Redirect"),
  (400, "BAD_REQUEST", "Bad Request"),
  (401, "UNAUTHORIZED", "Unauthorized"),
  (402, "PAYMENT_REQUIRED", "Payment Required"),
  (403, "FORBIDDEN", "Forbidden"),
  (404, "NOT_FOUND", "Not Found"),
  (405, "METHOD_NOT_ALLOWED", "Method Not Allowed"),
  (406, "NOT_ACCEPTABLE", "Not Acceptable"),
  (407, "PROXY_AUTHENTICATION_REQUIRED", "Proxy Authentication Required"),
  (408, "REQUEST_TIMEOUT", "Request Timeout"),
  (409, "CONFLICT", "Conflict"),
  (410, "GONE", "Gone"),
  (411, "LENGTH_REQUIRED", "Length Required"),
  (412, "PRECONDITION_FAILED", "Precondition Failed"),
  (413, "REQUEST_ENTITY_TOO_LARGE", "Request Entity Too Large"),
  (414, "REQUEST_URI_TOO_LONG", "Request-URI Too Long"),
  (415, "UNSUPPORTED_MEDIA_TYPE", "Unsupported Media Type"),
  (416, "REQUESTED_RANGE_NOT_SATISFIABLE", "Requested Range Not Satisfiable"),
  (417, "EXPECTATION_FAILED", "Expectation Failed"),
  (418, "IM_A_TEAPOT", "I'm a teapot"),
  (421, "MISDIRECTED_REQUEST", "Misdirected Request"),
  (422, "UNPROCESSABLE_ENTITY", "Unprocessable Entity"),
  (423, "LOCKED", "Locked"),
  (424, "FAILED_DEPENDENCY", "Failed Dependency"),
  (425, "TOO_EARLY", "Too Early"),
  (426, "UPGRADE_REQUIRED", "Upgrade Required"),
  (428, "PRECONDITION_REQUIRED", "Precondition Required"),
  (429, "TOO_MANY_REQUESTS", "Too Many Requests"),
  (431, "REQUEST_HEADER_FIELDS_TOO_LARGE", "Request Header Fields Too Large"),
  (451, "UNAVAILABLE_FOR_LEGAL_REASONS", "Unavailable For Legal Reasons"),
  (500, "INTERNAL_SERVER_ERROR", "Internal Server Error"),
  (501, "NOT_IMPLEMENTED", "Not Implemented"),
  (502, "BAD_GATEWAY", "Bad Gateway"),
  (503, "SERVICE_UNAVAILABLE", "Service Unavailable"),
  (504, "GATEWAY_TIMEOUT", "Gateway Timeout"),
  (505, "HTTP_VERSION_NOT_SUPPORTED", "HTTP Version Not Supported"),
  (506, "VARIANT_ALSO_NEGOTIATES", "Variant Also Negotiates"),
  (507, "INSUFFICIENT_STORAGE", "Insufficient Storage"),
  (508, "LOOP_DETECTED", "Loop Detected"),
  (510, "NOT_EXTENDED", "Not Extended"),
  (511, "NETWORK_AUTHENTICATION_REQUIRED", "Network Authentication Required")]

def statusWords (status : Nat) : String := ((statusRows.lookup status).map Prod.snd).getD ""

def statusNamed? (name : String) : Option Nat :=
  (statusRows.find? fun row => row.2.1 == name).map Prod.fst

/-! ## Messages -/

/-- What the body of a message is made from. -/
inductive Content where
  | none
  | bytes (body : List UInt8)
  /-- Bytes of a named type. -/
  | typed (body : List UInt8) (type : Text)
  | chunks (chunks : List (List UInt8)) (asynchronous : Bool)
  | consumed
  deriving DecidableEq, Repr, Inhabited

namespace Content

def body : Content → Body
  | .none => .read []
  | .bytes b | .typed b _ => .read b
  | .chunks cs asynchronous => .waiting cs asynchronous
  | .consumed => .consumed

def fields : Content → List (Text × Text)
  | .none | .consumed => []
  | .bytes [] => []
  | .bytes b => [(chars "Content-Length", decimalDigits b.length)]
  | .typed b type =>
    [(chars "Content-Length", decimalDigits b.length), (chars "Content-Type", type)]
  | .chunks .. => [(chars "Transfer-Encoding", chars "chunked")]

end Content

def Headers.describing (h : Headers) (content : Content) : Headers :=
  h.withDefaults (content.fields.filter fun (name, _) =>
    !(name == chars "Transfer-Encoding" && h.has (chars "content-length")))

def Request.make (method : Text) (url : Url) (headers : Headers) (content : Content) : Request :=
  let method := method.upper
  let headers := headers.describing content
  let host := if headers.has (chars "host") || url.host.isEmpty then []
    else [(chars "Host", url.hostPort)]
  let sized := headers.has (chars "content-length") || headers.has (chars "transfer-encoding")
  let takesBody := [chars "POST", chars "PUT", chars "PATCH"].contains method
  let size := if sized || !takesBody then [] else [(chars "Content-Length", ['0'])]
  ⟨method, url, ⟨host ++ size ++ headers.fields⟩, content.body⟩

def Response.make (status : Value) (headers : Headers) (content : Content) (reason : List UInt8)
    (request : Option Value) : Except String Response := do
  let headers := headers.describing content
  let body ← match content.body with
    | .read bytes => do pure (Body.read (← headers.decodeContent [bytes]))
    | body => pure body
  return ⟨status, headers, body, reason, request⟩

def Headers.charset? (h : Headers) : Option Text := do
  let type ← h.get? (chars "content-type")
  let front := chars "charset="
  let part ← ((type.splitOn ';').drop 1).map Text.trim |>.find? fun part =>
    front.isPrefixOf (Text.lower part)
  let name := (Text.trim (part.drop front.length)).filter (· != '"')
  return Text.lower name

def Response.encoding (p : Response) : Text :=
  match p.headers.charset? with
  | some name => if (Codec.named? name).isSome then name else chars "utf-8"
  | none => chars "utf-8"

def Response.code (p : Response) : Int :=
  match p.status with
  | .scalar (.int n) => n
  | .scalar (.bool b) => if b then 1 else 0
  | _ => 0

def Response.words (p : Response) : Text :=
  if p.reason.isEmpty then chars (statusWords p.code.toNat)
  else (p.reason.filter (· < 128)).map fun b => Char.ofNat b.toNat

def Response.isWithin (p : Response) (low high : Int) : Bool := low ≤ p.code && p.code ≤ high

def Response.isRedirection (p : Response) : Bool :=
  [301, 302, 303, 307, 308].contains p.code && p.headers.has (chars "location")

def failureWords (status : Int) : String :=
  match Int.fdiv status 100 with
  | 1 => "Informational response"
  | 3 => "Redirect response"
  | 4 => "Client error"
  | 5 => "Server error"
  | _ => "Invalid status code"

def Response.failureText (p : Response) (url : Text) : Text :=
  let status := intText p.code
  let location := if p.isRedirection then
      chars "Redirect location: '" ++ (p.headers.get? (chars "location")).getD [] ++ chars "'\n"
    else []
  chars (failureWords p.code ++ " '") ++ status ++ ' ' :: (p.words ++ chars "' for url '" ++ url ++
    chars "'\n" ++ location ++ chars "For more information check: " ++
    chars "https://developer.mozilla.org/en-US/docs/Web/HTTP/Status/" ++ status)

end MacroExpand
