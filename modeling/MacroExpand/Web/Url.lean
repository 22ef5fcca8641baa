import MacroExpand.Number.Shortest
import MacroExpand.Text.PatternText
import MacroExpand.Text.Utf8
import MacroExpand.Web.HostName

/-!
# Addresses

An address is a scheme, an authority, a path, a query and a fragment.  Reading one lowers the scheme
and host, drops the port that the scheme implies, resolves dot segments and writes every character
that may not stand for itself as percent escapes.
-/

set_option autoImplicit false

namespace MacroExpand

/-- An address in normal form. -/
structure Url where
  scheme : Text
  userinfo : Text
  host : Text
  port : Option Int
  path : Text
  query : Option Text
  fragment : Option Text
  deriving DecidableEq, Repr, Inhabited

namespace Url

def isUnreserved (c : Char) : Bool :=
  c.isAlphanum || c == '-' || c == '.' || c == '_' || c == '~'

def isPlainExcept (refused : List Char) (c : Char) : Bool :=
  32 < c.toNat && c.toNat < 127 && !refused.contains c

def fragmentRefused : List Char := [' ', '"', '<', '>', '\x60']

def queryRefused : List Char := [' ', '"', '#', '<', '>']

def pathRefused : List Char := queryRefused ++ ['?', '\x60', '\x7b', '\x7d']

def userinfoRefused : List Char := pathRefused ++ ['/', ';', '=', '@', '[', '\\', ']', '^', '|']

def upperHex (n : Nat) : Text := (hexDigits n 2).map Char.toUpper

def percent (c : Char) : Text := (String.utf8EncodeChar c).flatMap fun b => '%' :: upperHex b.toNat

def quote (safe : Char → Bool) : Text → Text
  | [] => []
  | '%' :: a :: b :: rest =>
    if isHex a && isHex b then '%' :: a :: b :: quote safe rest
    else (if safe '%' then ['%'] else percent '%') ++ quote safe (a :: b :: rest)
  | c :: rest => (if isUnreserved c || safe c then [c] else percent c) ++ quote safe rest
where
  isHex (c : Char) : Bool := c.isDigit || ('a' ≤ c && c ≤ 'f') || ('A' ≤ c && c ≤ 'F')

def dropDots (done : List Text) : List Text → List Text
  | [] => done.reverse
  | part :: rest =>
    if part = ['.'] then dropDots done rest
    else if part = ['.', '.'] then
      dropDots (if done.isEmpty || done == [[]] then done else done.drop 1) rest
    else dropDots (part :: done) rest

def normalPath (path : Text) : Text :=
  let parts := path.splitOn '/'
  if parts.contains ['.'] || parts.contains ['.', '.'] then
    Text.joinWith ['/'] (dropDots [] parts)
  else path

def impliedPort (scheme : Text) : Option Int :=
  if scheme = chars "ftp" then some 21
  else if scheme = chars "http" ∨ scheme = chars "ws" then some 80
  else if scheme = chars "https" ∨ scheme = chars "wss" then some 443
  else none

/-- Whether a host looks like an address of four bytes: four runs of digits, with any character
between each two. -/
def isDotted (host : Text) : Bool :=
  match Pattern.ofText (chars "^[0-9]+.[0-9]+.[0-9]+.[0-9]+$") with
  | .ok p => p.occursIn host
  | .error _ => false

def isFourBytes (host : Text) : Bool :=
  let parts := host.splitOn '.'
  parts.length == 4 && parts.all fun p =>
    !p.isEmpty && p.length ≤ 3 && p.all Char.isDigit && (p == ['0'] || p.head? != some '0') &&
      Number.digitsValue p ≤ 255

/-- Whether a text is an address of eight groups of hexadecimal digits.  Two colons in a row stand
for groups of zeros, the last two groups may be written as four bytes, and a zone may follow. -/
def isEightGroups (address : Text) : Bool :=
  let host := address.takeWhile (· != '%')
  let zone := address.drop host.length
  let parts := host.splitOn ':'
  let last := parts.getLastD []
  let hasBytes := last.contains '.'
  let parts := if hasBytes then parts.dropLast ++ [['0'], ['0']] else parts
  let gaps := ((parts.drop 1).dropLast).filter List.isEmpty
  let groups := parts.filter (!·.isEmpty)
  let opensEmpty := parts.head? == some []
  let closesEmpty := parts.getLast? == some []
  (zone.isEmpty || (2 ≤ zone.length && !(zone.drop 1).contains '%')) &&
    3 ≤ (host.splitOn ':').length && parts.length ≤ 9 && (!hasBytes || isFourBytes last) &&
    groups.all (fun g => g.length ≤ 4 && g.all fun c => (hexValue c).isSome) &&
    (match gaps.length with
      | 0 => parts.length == 8 && !opensEmpty && !closesEmpty
      | 1 =>
        (!opensEmpty || parts[1]? == some []) &&
        (!closesEmpty || parts.dropLast.getLast? == some []) && groups.length < 8
      | _ => false)

def normalHost (host : Text) : Except String Text :=
  let fault := fun (what : String) =>
    Except.error ("Invalid " ++ what ++ ": " ++ String.ofList (Text.quoted host))
  if host.isEmpty then .ok []
  else if isDotted host then
    if isFourBytes host then .ok host else fault "IPv4 address"
  else if host.head? = some '[' ∧ 2 ≤ host.length ∧ host.getLast? = some ']' then
    let inner := (host.drop 1).dropLast
    if isEightGroups inner then .ok inner else fault "IPv6 address"
  else if host.isAscii then
    let safe := fun c => (chars "!$&'()*+,;=\"\x60\x7b\x7d%|\\").contains c
    .ok (quote safe (host.map Char.toLower))
  else match HostName.plain? host.lower with
    | some name => .ok name
    | none => fault "IDNA hostname"

def splitScheme (text : Text) : Text × Text :=
  match text with
  | [] => ([], [])
  | c :: _ =>
    let isRest := fun (d : Char) => d.isAlphanum || d == '+' || d == '.' || d == '-'
    let body := text.takeWhile isRest
    match text.dropWhile isRest with
    | ':' :: rest => if c.isAlpha then (body, rest) else if body.isEmpty then ([], rest) else ([], text)
    | _ => ([], text)

def splitAuthority (authority : Text) : Text × Text × Text :=
  let back := authority.reverse
  let afterAt := (back.takeWhile (· != '@')).reverse
  let user := if authority.contains '@' then
    ((back.dropWhile (· != '@')).drop 1).reverse else []
  match afterAt with
  | '[' :: _ =>
    let rest := afterAt.reverse.takeWhile (· != ']')
    if afterAt.contains ']' then
      let host := afterAt.take (afterAt.length - rest.length)
      (user, host, (match rest.reverse with
        | ':' :: port => port
        | port => port))
    else (user, afterAt.takeWhile (· != ':'), (afterAt.dropWhile (· != ':')).drop 1)
  | _ => (user, afterAt.takeWhile (· != ':'), (afterAt.dropWhile (· != ':')).drop 1)

def firstControl (place : Nat) : Text → Option (Char × Nat)
  | [] => none
  | c :: rest =>
    if c.toNat < 32 || c.toNat == 127 then some (c, place) else firstControl (place + 1) rest

/-- The parts of which an address is put together. -/
inductive Part where
  | scheme
  | authority
  | userinfo
  | host
  | port
  | path
  | query
  | fragment
  deriving DecidableEq, Repr, Inhabited

namespace Part

def name : Part → String
  | .scheme => "scheme"
  | .authority => "authority"
  | .userinfo => "userinfo"
  | .host => "host"
  | .port => "port"
  | .path => "path"
  | .query => "query"
  | .fragment => "fragment"

def fits (part : Part) (text : Text) : Bool :=
  let free := fun (refused : List Char) => text.all fun c => !refused.contains c
  match part with
  | .scheme =>
    match text with
    | [] => true
    | c :: rest => c.isAlpha && rest.all fun d => d.isAlphanum || d == '+' || d == '.' || d == '-'
  | .authority => free ['/', '?', '#']
  | .userinfo => free ['@']
  | .host => free [':'] || (text.head? == some '[' && text.getLast? == some ']')
  | .path => free ['?', '#']
  | .query => free ['#']
  | .port | .fragment => true

end Part

/-- An address that is not in normal form yet. -/
structure Draft where
  scheme : Text
  userinfo : Text
  host : Text
  port : Option Text
  path : Text
  query : Option Text
  fragment : Option Text
  deriving DecidableEq, Repr, Inhabited

namespace Draft

def withAuthority (d : Draft) (authority : Text) : Draft :=
  let (userinfo, host, port) := splitAuthority authority
  { d with userinfo, host, port := if port.isEmpty then none else some port }

def ofText (text : Text) : Draft :=
  let (scheme, rest) := splitScheme text
  let isEnd := fun c => c == '/' || c == '?' || c == '#'
  let (authority, rest) := match rest with
    | '/' :: '/' :: more => (more.takeWhile (!isEnd ·), more.dropWhile (!isEnd ·))
    | more => ([], more)
  let path := rest.takeWhile fun c => c != '?' && c != '#'
  let rest := rest.dropWhile fun c => c != '?' && c != '#'
  let (query, rest) := match rest with
    | '?' :: more => (some (more.takeWhile (· != '#')), more.dropWhile (· != '#'))
    | more => (none, more)
  let fragment := match rest with
    | '#' :: more => some more
    | _ => none
  withAuthority ⟨scheme, [], [], none, path, query, fragment⟩ authority

def replace (d : Draft) : Part × Option Text → Draft
  | (.scheme, t) => { d with scheme := t.getD [] }
  | (.authority, t) => d.withAuthority (t.getD [])
  | (.userinfo, t) => { d with userinfo := t.getD [] }
  | (.host, t) => { d with host := t.getD [] }
  | (.port, t) => { d with port := t }
  | (.path, t) => { d with path := t.getD [] }
  | (.query, t) => { d with query := t }
  | (.fragment, t) => { d with fragment := t }

def finish (d : Draft) : Except String Url := do
  let userinfo := quote (isPlainExcept userinfoRefused) d.userinfo
  let host ← normalHost d.host
  let port ← match d.port with
    | none | some [] => pure none
    | some text =>
      match Number.readInt 10 text with
      | none => throw ("Invalid port: " ++ String.ofList (Text.quoted text))
      | some n => pure (if impliedPort d.scheme = some n then none else some n)
  let hasAuthority := !userinfo.isEmpty || !host.isEmpty || port.isSome
  if hasAuthority && !d.path.isEmpty && d.path.head? != some '/' then
    throw "For absolute URLs, path must be empty or begin with '/'"
  if d.scheme.isEmpty && !hasAuthority then
    if d.path.take 2 == ['/', '/'] then throw "Relative URLs cannot have a path starting with '//'"
    if d.path.take 1 == [':'] then throw "Relative URLs cannot have a path starting with ':'"
  let path := if !d.scheme.isEmpty || hasAuthority then normalPath d.path else d.path
  return {
    scheme := d.scheme.map Char.toLower, userinfo, host, port
    path := quote (isPlainExcept pathRefused) path
    query := d.query.map (quote (isPlainExcept queryRefused))
    fragment := d.fragment.map (quote (isPlainExcept fragmentRefused)) }

end Draft

def checkText (what : String) (tooLong : String) (text : Text) : Except String Unit := do
  if text.length > 65536 then throw tooLong
  if let some (c, place) := firstControl 0 text then
    throw ("Invalid non-printable ASCII character in URL" ++ what ++ ", " ++
      String.ofList (Text.quoted [c]) ++ " at position " ++ toString place ++ ".")

def assemble (text : Text) (changes : List (Part × Option Text)) : Except String Url := do
  checkText "" "URL too long" text
  for (part, value) in changes do
    if let some t := value then
      checkText (" " ++ part.name ++ " component") ("URL component '" ++ part.name ++ "' too long") t
      if !part.fits t then throw ("Invalid URL component '" ++ part.name ++ "'")
  let first := changes.filter fun c => c.1 = .authority
  ((first ++ changes.filter fun c => c.1 ≠ .authority).foldl Draft.replace (.ofText text)).finish

def ofText (text : Text) : Except String Url := assemble text []

def hostPort (u : Url) : Text :=
  (if u.host.contains ':' then '[' :: (u.host ++ [']']) else u.host) ++
    (match u.port with
      | none => []
      | some n => ':' :: intText n)

def authority (u : Url) : Text :=
  (if u.userinfo.isEmpty then [] else u.userinfo ++ ['@']) ++ u.hostPort

def textWith (authority : Text) (u : Url) : Text :=
  (if u.scheme.isEmpty then [] else u.scheme ++ [':']) ++
    (if authority.isEmpty then [] else '/' :: '/' :: authority) ++
    u.path ++
    (match u.query with
      | none => []
      | some q => '?' :: q) ++
    (match u.fragment with
      | none => []
      | some f => '#' :: f)

def text (u : Url) : Text := u.textWith u.authority

def guardedText (u : Url) : Text :=
  if u.userinfo.contains ':' then
    { u with userinfo := u.userinfo.takeWhile (· != ':') ++ chars ":[secure]" }.text
  else u.text

def revise (u : Url) (changes : List (Part × Option Text)) : Except String Url :=
  if changes.isEmpty then .ok u
  else
    let kept : List (Part × Option Text) := [(.scheme, some u.scheme),
      (.authority, some u.authority), (.path, some u.path), (.query, u.query),
      (.fragment, u.fragment)]
    assemble [] ((kept.filter fun k => !changes.any fun c => c.1 = k.1) ++ changes)

/-! ## References -/

def relativeSchemes : List String := [
  "", "ftp", "http", "gopher", "nntp", "imap", "wais", "file", "https", "shttp", "mms", "prospero",
  "rtsp", "rtspu", "sftp", "svn", "svn+ssh", "ws", "wss"]

def resolveDots (done : List Text) : List Text → List Text
  | [] => done.reverse
  | part :: rest =>
    if part = ['.', '.'] then resolveDots (done.drop 1) rest
    else if part = ['.'] then resolveDots done rest
    else resolveDots (part :: done) rest

def joinPath (base reference : Text) : Text :=
  let baseParts := base.splitOn '/'
  let baseParts := if baseParts.getLast? == some [] then baseParts else baseParts.dropLast
  let parts := if reference.head? == some '/' then reference.splitOn '/'
    else
      let all := baseParts ++ reference.splitOn '/'
      all.take 1 ++ ((all.drop 1).dropLast.filter (!·.isEmpty)) ++
        (if all.length < 2 then [] else all.drop (all.length - 1))
  let last := parts.getLastD []
  let resolved := resolveDots [] parts ++
    (if last == ['.'] || last == ['.', '.'] then [[]] else [])
  let text := Text.joinWith ['/'] resolved
  if text.isEmpty then ['/'] else text

def plainText (scheme authority path : Text) (query fragment : Option Text) : Text :=
  let hosted := relativeSchemes.contains (String.ofList scheme) && !scheme.isEmpty &&
    path.take 2 != ['/', '/']
  let body := if !authority.isEmpty || hosted then
      '/' :: '/' :: (authority ++
        if !path.isEmpty && path.head? != some '/' then '/' :: path else path)
    else path
  let tail := fun (mark : Char) (t : Option Text) => match t with
    | none | some [] => []
    | some t => mark :: t
  (if scheme.isEmpty then [] else scheme ++ [':']) ++ body ++ tail '?' query ++ tail '#' fragment

def joinText (base other : Url) : Text :=
  if base.text.isEmpty then other.text
  else if other.text.isEmpty then base.text
  else
    let scheme := if other.scheme.isEmpty then base.scheme else other.scheme
    if scheme ≠ base.scheme || !relativeSchemes.contains (String.ofList scheme) then other.text
    else if !other.authority.isEmpty then
      plainText scheme other.authority other.path other.query other.fragment
    else if other.path.isEmpty then
      let query := if other.query.all List.isEmpty then base.query else other.query
      plainText scheme base.authority base.path query other.fragment
    else
      plainText scheme base.authority (joinPath base.path other.path) other.query other.fragment

def join (base : Url) (reference : Text) : Except String Url := do
  ofText (base.joinText (← ofText reference))

end Url

end MacroExpand
