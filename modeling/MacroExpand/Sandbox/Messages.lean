import MacroExpand.Sandbox.Documents
import MacroExpand.Web.Message

/-!
# Addresses, parameters, header fields, requests and responses
-/

set_option autoImplicit false

namespace MacroExpand

namespace Sandbox

def classText (v : Value) : Eval String := do
  return "<class '" ++ fullName (← classData (← classOf v)) ++ "'>"

def declaredMaker (cls parameters : String) (run : Interpreter → Arguments → Eval Value) :
    String × Maker :=
  let declared := Declared.ofText (cls ++ ".__init__") ("self " ++ parameters)
  (cls, fun r a => do
    match declared.arrange { a with positional := nil :: a.positional } with
    | .error fault => typeError (fault.message declared.qualname)
    | .ok given => run r { given with keyword := given.keyword.drop 1 })

def insist (condition : Bool) (message : String) : Eval Unit := do
  if !condition then raise "AssertionError" message

def listed? (v : Value) : Eval (Option (List Value)) := do
  match (← core? v) with
  | some (.list xs) | some (.tuple xs) => return some xs
  | _ => return none

def mapping? (v : Value) : Eval (Option (List (Value × Value))) := do
  return (← core? v).bind entries?

/-! ## Parameters -/

def parameterText (r : Interpreter) (v : Value) : Eval Text := do
  match v with
  | .scalar (.bool b) => return chars (if b then "true" else "false")
  | .scalar .nil => return []
  | v => plainText r v

def parameterPairs (r : Interpreter) (rows : List (Value × List Value)) :
    Eval (List (Text × Text)) := do
  let pairs ← rows.mapM fun (k, xs) => do
    let name ← plainText r k
    xs.mapM fun x => do return (name, ← parameterText r x)
  return groupPairs pairs.flatten

def parametersFrom (r : Interpreter) (v : Value) : Eval (List (Text × Text)) := do
  match (← text? v), (← unwrap v), (← core? v) with
  | some t, _, _ => return groupPairs (queryPairs t)
  | none, .scalar (.bytes b), _ => do
      return groupPairs (queryPairs (← decoded .ascii (chars "strict") b))
  | none, .scalar .nil, _ => return []
  | none, _, some (.known _ (.queryParams ps)) => return ps
  | none, _, some (.list xs) | none, _, some (.tuple xs) =>
    let rows ← xs.mapM fun x => do
      let key ← getItem r x (ofInt 0)
      return (key, [← getItem r x (ofInt 1)])
    parameterPairs r rows
  | none, _, some cell =>
    match entries? cell with
    | some es => do
        let rows ← es.mapM fun (k, x) => do return (k, (← listed? x).getD [x])
        parameterPairs r rows
    | none => noAttribute v "items"
  | none, _, none => noAttribute v "items"

def newParameters (ps : List (Text × Text)) : Eval Value := newKnown "QueryParams" (.queryParams ps)

/-! ## Header fields -/

def fieldText (t : Text) : Eval Text := do
  discard (encoded .ascii (chars "strict") t)
  return t

def fieldName? (v : Value) : Eval Text := do
  match (← text? v), (← unwrap v) with
  | some t, _ => fieldText t
  | none, .scalar (.bytes b) => return latin b
  | none, _ => noAttribute v "encode"

def fieldValue? (v : Value) : Eval Text := do
  match (← text? v), (← unwrap v) with
  | some t, _ => fieldText t
  | none, .scalar (.bytes b) => return latin b
  | none, _ => typeError ("Header value must be str or bytes, not " ++ (← classText v))

def headersFrom (r : Interpreter) (v : Value) : Eval Headers := do
  if v = nil then return ⟨[]⟩
  match (← state? v), (← mapping? v) with
  | some (.headers h), _ => return h
  | _, some es =>
    return ⟨← es.mapM fun (k, x) => do return (← fieldName? k, ← fieldValue? x)⟩
  | _, none =>
    return ⟨← (← iterate r v).mapM fun pair => do
      let parts ← unpack r 2 pair
      return (← fieldName? (parts.getD 0 nil), ← fieldValue? (parts.getD 1 nil))⟩

/-! ## Addresses -/

def orInvalid {α : Type} : Except String α → Eval α
  | .ok a => return a
  | .error why => raise "InvalidURL" why

def urlParts : List (String × String) := [
  ("scheme", "str"), ("username", "str"), ("password", "str"), ("userinfo", "bytes"),
  ("host", "str"), ("port", "int"), ("netloc", "bytes"), ("path", "str"), ("query", "bytes"),
  ("raw_path", "bytes"), ("fragment", "str"), ("params", "object")]

def givenParts (r : Interpreter) (keyword : List (String × Value)) :
    Eval (List (String × Option Text)) := do
  let texts ← keyword.mapM fun (name, v) => do
    match urlParts.lookup name with
    | none =>
      typeError (String.ofList (Text.quoted name.toList) ++
        " is an invalid keyword argument for URL()")
    | some cls =>
      if v ≠ nil && !(← isKnown v cls) then
        typeError ("Argument " ++ String.ofList (Text.quoted name.toList) ++ " must be " ++ cls ++
          " but got " ++ (← classData (← classOf v)).name)
      match v with
      | .scalar .nil => return (name, none)
      | .scalar (.bytes b) => do return (name, some (← decoded .ascii (chars "strict") b))
      | v => if name == "params" then return (name, none) else do
          return (name, some (← plainText r v))
  match lookup keyword "params" with
  | none => return texts
  | some v =>
    let ps ← if (← truthy r v) then parametersFrom r v else pure []
    let query := if (← truthy r v) then some (queryText ps) else none
    return texts.filter (fun (n, _) => n != "params" && n != "query") ++ [("query", query)]

def urlChanges (given : List (String × Option Text)) : List (Url.Part × Option Text) :=
  let text := fun (name : String) => (given.lookup name).map fun t => t.getD []
  let quoted := fun (name : String) =>
    Url.quote (Url.isPlainExcept (':' :: Url.userinfoRefused)) ((text name).getD [])
  let bracketed := fun (host : Text) =>
    if host.contains ':' && !(host.head? = some '[' && host.getLast? = some ']') then
      '[' :: (host ++ [']'])
    else host
  let plain := given.filterMap fun (name, t) =>
    match name with
    | "scheme" => some (Url.Part.scheme, t)
    | "userinfo" => some (.userinfo, t)
    | "host" => some (.host, t.map bracketed)
    | "port" => some (.port, t)
    | "path" => some (.path, t)
    | "query" => some (.query, t)
    | "fragment" => some (.fragment, t)
    | _ => none
  let network := match text "netloc" with
    | some t => [(Url.Part.host, some (bracketed (t.takeWhile (· != ':')))),
        (.port, some ((t.dropWhile (· != ':')).drop 1))]
    | none => []
  let user := if (text "username").isSome || (text "password").isSome then
      let password := quoted "password"
      [(Url.Part.userinfo, some (quoted "username" ++
        (if password.isEmpty then [] else ':' :: password)))]
    else []
  let target := match text "raw_path" with
    | some t => [(Url.Part.path, some (t.takeWhile (· != '?'))),
        (.query, if t.contains '?' then some ((t.dropWhile (· != '?')).drop 1) else none)]
    | none => []
  let later := network ++ user ++ target
  plain.filter (fun p => !later.any fun l => l.1 = p.1) ++ later

def urlFrom (r : Interpreter) (v : Value) (keyword : List (String × Value)) : Eval Url := do
  let changes := urlChanges (← givenParts r keyword)
  match (← text? v), (← state? v) with
  | some t, _ => orInvalid (Url.assemble t changes)
  | none, some (.url u) => orInvalid (u.revise changes)
  | none, _ =>
    typeError ("Invalid type for url.  Expected str or httpx.URL, got " ++ (← classText v) ++
      ": " ++ String.ofList (← codeText r v))

def newUrl (u : Url) : Eval Value := newKnown "URL" (.url u)

def unescaped (t : Text) : Text := utf8DecodeLoosely 0 [] (percentDecode t)

def urlPart? (u : Url) (name : String) : Option (Eval Value) :=
  let text := fun (t : Text) => some (pure (ofText t) : Eval Value)
  let bytes := fun (t : Text) => some (pure (ofBytes (unlatin t)) : Eval Value)
  let isAbsolute := !u.scheme.isEmpty && !u.host.isEmpty
  let path := if u.path.isEmpty then ['/'] else u.path
  match name with
  | "scheme" => text u.scheme
  | "raw_scheme" => bytes u.scheme
  | "host" =>
    text (if (chars "xn--").isPrefixOf u.host then (HostName.shown? u.host).getD u.host else u.host)
  | "raw_host" => bytes u.host
  | "path" => text (unescaped path)
  | "fragment" => text (unescaped (u.fragment.getD []))
  | "username" => text (unescaped (u.userinfo.takeWhile (· != ':')))
  | "password" => text (unescaped ((u.userinfo.dropWhile (· != ':')).drop 1))
  | "port" => some (pure (match u.port with
      | some n => ofInt n
      | none => nil))
  | "query" => bytes (u.query.getD [])
  | "netloc" => bytes u.hostPort
  | "userinfo" => bytes u.userinfo
  | "raw_path" => bytes (path ++ (match u.query with
      | some q => '?' :: q
      | none => []))
  | "params" => some (newParameters (groupPairs (queryPairs (u.query.getD []))))
  | "is_absolute_url" => some (pure (ofBool isAbsolute))
  | "is_relative_url" => some (pure (ofBool !isAbsolute))
  | _ => none

def selfUrl (v : Value) : Eval Url := do
  match (← state? v) with
  | some (.url u) => return u
  | _ => return default

/-! ## Methods of parameters -/

def selfParameters (v : Value) : Eval (List (Text × Text)) := do
  match (← state? v) with
  | some (.queryParams ps) => return ps
  | some (.headers h) => return h.items
  | some (.url u) => return groupPairs (queryPairs (u.query.getD []))
  | _ => return []

def withParameter (ps : List (Text × Text)) (name value : Text) : List (Text × Text) :=
  if ps.any (·.1 == name) then
    (ps.map Prod.fst).eraseDups.flatMap fun n =>
      if n == name then [(n, value)] else ps.filter (·.1 == n)
  else ps ++ [(name, value)]

def mergedParameters (ps news : List (Text × Text)) : List (Text × Text) :=
  let names := ((ps ++ news).map Prod.fst).eraseDups
  names.flatMap fun n =>
    let found := news.filter (·.1 == n)
    if found.isEmpty then ps.filter (·.1 == n) else found

def parameterChange (change : String) (r : Interpreter) (a : Arguments) (ps : List (Text × Text)) :
    Eval (List (Text × Text)) := do
  if change == "merge" then return mergedParameters ps (← parametersFrom r (a.under "params"))
  let name ← plainText r (a.under "key")
  match change with
  | "set" => return withParameter ps name (← parameterText r (a.under "value"))
  | "add" => return groupPairs (ps ++ [(name, ← parameterText r (a.under "value"))])
  | _ => return ps.filter (·.1 ≠ name)

def parameterChanges : List (String × String × String) := [
  ("set", "copy_set_param", "key value="), ("add", "copy_add_param", "key value="),
  ("remove", "copy_remove_param", "key")]

def pairsMethod (owner : String) : Native :=
  .method owner "multi_items" "" fun _ v _ => do
    newList (← (← selfParameters v).mapM fun (k, x) => newTuple [ofText k, ofText x])

def viewsOf (owner : String) : List Native :=
  [("keys", "dict_keys"), ("values", "dict_values"), ("items", "dict_items")].map fun (name, cls) =>
    .method owner name "" fun _ v _ => do
      match (← unwrap v) with
      | .ref i => alloc (.view cls i)
      | .scalar _ => return nil

def getMethod (owner : String) : Native :=
  .method owner "get" "key default=" fun r v a => do
    match (← attempt (getItem r v (a.under "key"))) with
    | .ok x => return x
    | .error (.raised e) =>
      if (← isKnown e "KeyError") then return a.under "default" else throw (.raised e)
    | .error e => throw e

def parameterMethods : List Native :=
  viewsOf "QueryParams" ++ [
  getMethod "QueryParams", pairsMethod "QueryParams",
  .method "QueryParams" "get_list" "key" fun r v a => do
    let key ← plainText r (a.under "key")
    newList ((← selfParameters v).filterMap fun (n, x) => if n == key then some (ofText x) else none),
  .method "QueryParams" "merge" "params=" fun r v a => do
    newParameters (← parameterChange "merge" r a (← selfParameters v)),
  .method "QueryParams" "update" "params=" fun _ _ _ =>
    raise "RuntimeError" ("QueryParams are immutable since 0.18.0. Use \x60q = q.merge(...)\x60 to " ++
      "create an updated copy.")] ++
  parameterChanges.map fun (name, _, given) =>
    .method "QueryParams" name given fun r v a => do
      newParameters (← parameterChange name r a (← selfParameters v))

def urlMethods : List Native := [
  .method "URL" "join" "url" fun r v a => do
    let reference ← urlFrom r (a.under "url") []
    newUrl (← orInvalid ((← selfUrl v).join reference.text)),
  .method "URL" "copy_with" "**kwargs" fun r v a => do newUrl (← urlFrom r v a.keyword),
  .method "URL" "copy_merge_params" "params" fun r v a => copied "merge" r v a] ++
  parameterChanges.map fun (change, name, given) => .method "URL" name given (copied change)
where
  /-- An address with its parameters changed. -/
  copied (change : String) (r : Interpreter) (v : Value) (a : Arguments) : Eval Value := do
    let ps ← parameterChange change r a (← selfParameters v)
    newUrl (← urlFrom r v [("params", ← newParameters ps)])

/-! ## Methods of fields -/

def selfHeaders (v : Value) : Eval (Nat × Headers) := do
  match (← unwrap v), (← state? v) with
  | .ref i, some (.headers h) => return (i, h)
  | _, _ => return (0, ⟨[]⟩)

def setHeaders (i : Nat) (h : Headers) : Eval Unit := setCell i (.known "Headers" (.headers h))

def withoutField (h : Headers) (name : Text) : Headers :=
  ⟨h.fields.filter fun f => f.1.map Char.toLower ≠ name.map Char.toLower⟩

def mergedHeaders (h news : Headers) : Headers :=
  ⟨(h.fields.filter fun f => !news.has (f.1.map Char.toLower)) ++ news.fields⟩

def headerMethods : List Native := viewsOf "Headers" ++ [
  getMethod "Headers", pairsMethod "Headers",
  .method "Headers" "get_list" "key split_commas=" fun r v a => do
    let key ← match (← text? (a.under "key")) with
      | some t => pure (t.map Char.toLower)
      | none => noAttribute (a.under "key") "lower"
    let found := (← selfParameters v).filterMap fun (n, x) => if n == key then some x else none
    let found := if (← truthy r (a.under "split_commas")) then
        found.flatMap fun t => (List.splitOn ',' t).map Text.trim
      else found
    newList (found.map ofText),
  .method "Headers" "update" "headers=" fun r v a => do
    let (i, h) ← selfHeaders v
    setHeaders i (mergedHeaders h (← headersFrom r (a.under "headers")))
    return nil,
  .method "Headers" "copy" "" fun _ v _ => do newKnown "Headers" (.headers (← selfHeaders v).2),
  .method "MutableMapping" "setdefault" "key default=" fun r v a => do
    if (← contains r v (a.under "key")) then getItem r v (a.under "key")
    else
      setItem r v (a.under "key") (a.under "default")
      return a.under "default",
  .method "MutableMapping" "pop" "key default=" fun r v a => do
    match (← contains r v (a.under "key")), a.named? "default" with
    | false, some other => return other
    | _, _ =>
      let x ← getItem r v (a.under "key")
      delItem r v (a.under "key")
      return x,
  .method "MutableMapping" "popitem" "" fun _ v _ => do
    let (i, h) ← selfHeaders v
    match h.items.head? with
    | none => raiseWith "KeyError" []
    | some (n, _) =>
      setHeaders i (withoutField h n)
      newTuple [ofText n, ofText ((h.get? n).getD [])],
  .method "MutableMapping" "clear" "" fun _ v _ => do
    setHeaders (← selfHeaders v).1 ⟨[]⟩
    return nil]

def formMethods : List Native := viewsOf "ImmutableMultiDict" ++ [
  getMethod "Mapping",
  .method "ImmutableMultiDict" "multi_items" "" fun _ v _ => do
    match (← state? v) with
    | some (.formData es) => newList (← es.mapM fun (k, x) => newTuple [k, x])
    | _ => newList [],
  .method "ImmutableMultiDict" "getlist" "key" fun r v a => do
    match (← state? v) with
    | some (.formData es) =>
      let found ← es.filterM fun e => alike r e.1 (a.under "key")
      newList (found.map Prod.snd)
    | _ => newList []]

/-! ## Messages -/

def formBody (r : Interpreter) (entries : List (Value × Value)) : Eval (List UInt8) := do
  let rows ← entries.mapM fun (k, x) => do
    let name ← plainText r k
    ((← listed? x).getD [x]).mapM fun x => do return (name, ← parameterText r x)
  return (queryText rows.flatten).utf8

def rawContent (r : Interpreter) (v : Value) : Eval Content := do
  match (← text? v), (← unwrap v), (← core? v) with
  | some t, _, _ => return .bytes t.utf8
  | none, .scalar (.bytes b), _ => return .bytes b
  | none, _, some (.generator f _ _) =>
    if f.isAsync then return .chunks [] true else pieces
  | none, _, some (.dict _) | none, _, some (.known _ (.ordered _)) => refuse
  | none, _, _ => if (← isIterable v) then pieces else refuse
where
  refuse : Eval Content := do typeError ("Unexpected type for 'content', " ++ (← classText v))
  pieces : Eval Content := do
    let chunks ← (← iterate r v).mapM fun c => do
      match (← bytes? c) with
      | some b => return b
      | none => return (← plainText r c).utf8
    return .chunks chunks false

def documentContent (r : Interpreter) (v : Value) : Eval Content := do
  let style : DocumentStyle :=
    { betweenItems := [','], betweenNames := [':'], ascii := false, named := false }
  return .typed (← writeJson r style v).utf8 (chars "application/json")

def textContent (type : String) (v : Value) : Eval Content := do
  match (← text? v) with
  | some t => return .typed t.utf8 (chars type)
  | none => noAttribute v "encode"

def requestContent (r : Interpreter) (a : Arguments) : Eval Content := do
  let data := a.under "data"
  match (← mapping? data) with
  | none => if data ≠ nil then rawContent r data else rest []
  | some es => rest es
where
  rest (data : List (Value × Value)) : Eval Content := do
    if a.under "content" ≠ nil then rawContent r (a.under "content")
    else if !data.isEmpty then
      return .typed (← formBody r data) (chars "application/x-www-form-urlencoded")
    else if a.under "json" ≠ nil then documentContent r (a.under "json")
    else return .none

def responseContent (r : Interpreter) (a : Arguments) : Eval Content := do
  if a.under "content" ≠ nil then rawContent r (a.under "content")
  else if a.under "text" ≠ nil then textContent "text/plain; charset=utf-8" (a.under "text")
  else if a.under "html" ≠ nil then textContent "text/html; charset=utf-8" (a.under "html")
  else if a.under "json" ≠ nil then documentContent r (a.under "json")
  else return .none

def cookieFields (r : Interpreter) (v : Value) : Eval (List (Text × Text)) := do
  if !(← truthy r v) then return []
  let es ← match (← mapping? v) with
    | some es => pure es
    | none => do
        (← iterate r v).mapM fun pair => do
          let parts ← unpack r 2 pair
          return (parts.getD 0 nil, parts.getD 1 nil)
  let parts ← es.mapM fun (k, x) => do return (← plainText r k) ++ '=' :: (← plainText r x)
  return [(chars "Cookie", Text.joinWith (chars "; ") parts)]

def messageMakers : List (String × Maker) := [
  declaredMaker "URL" "url= **kwargs" fun r a => do
    newUrl (← urlFrom r ((a.named? "url").getD (ofText [])) (a.keyword.filter (·.1 != "url"))),
  ("QueryParams", fun r a => do
    insist (a.positional.length < 2) "Too many arguments."
    insist (a.positional.isEmpty || a.keyword.isEmpty) "Cannot mix named and unnamed arguments."
    match a.positional[0]? with
    | some v => newParameters (← parametersFrom r v)
    | none =>
      newParameters (← parametersFrom r (← newDict (a.keyword.map fun (k, v) => (ofString k, v))))),
  declaredMaker "Headers" "headers= encoding=" fun r a => do
    newKnown "Headers" (.headers (← headersFrom r (a.under "headers"))),
  ("FormData", fun r a => do
    insist (a.positional.length < 2) "Too many arguments."
    let given := a.at0
    let first ← match (← state? given), (← mapping? given) with
      | some (.formData es), _ => pure es
      | some (.queryParams ps), _ => pure (ps.map fun (k, x) => (ofText k, ofText x))
      | _, some es => pure es
      | _, none =>
        if !(← truthy r given) then pure []
        else (← iterate r given).mapM fun pair => do
          let parts ← unpack r 2 pair
          return (parts.getD 0 nil, parts.getD 1 nil)
    newKnown "FormData" (.formData (first ++ a.keyword.map fun (k, v) => (ofString k, v)))),
  declaredMaker "Request" ("method url * params= headers= cookies= content= data= files= json= " ++
      "stream= extensions=") fun r a => do
    let method ← match (← text? (a.under "method")) with
      | some t => pure t
      | none => noAttribute (a.under "method") "upper"
    let u ← urlFrom r (a.under "url")
      (a.keyword.filter fun (k, v) => k == "params" && v != nil)
    let h ← headersFrom r (a.under "headers")
    let h : Headers := ⟨h.fields ++ (← cookieFields r (a.under "cookies"))⟩
    newKnown "Request" (.request (.make method u h (← requestContent r a))),
  declaredMaker "Response" ("status_code * headers= content= text= html= json= stream= request= " ++
      "extensions= history= default_encoding=") fun r a => do
    let h ← headersFrom r (a.under "headers")
    let reason ← match (← mapping? (a.under "extensions")) with
      | none => pure []
      | some es =>
        match (← valueAt? r es (ofString "reason_phrase")) with
        | some v => selfBytes v
        | none => pure []
    let request : Option Value := match a.under "request" with
      | .scalar .nil => none
      | v => some v
    match Response.make (a.under "status_code") h (← responseContent r a) reason request with
    | .ok made => newKnown "Response" (.response made)
    | .error why => raise "DecodingError" why]

def bodyBytes (kind who : String) : Body → Eval (List UInt8)
  | .read b => return b
  | _ => raise kind ("Attempted to access streaming " ++ who ++
      " content, without having called \x60read()\x60.")

def responseBytes (p : Response) : Eval (List UInt8) := bodyBytes "ResponseNotRead" "response" p.body

def responseRequest (p : Response) : Eval Value :=
  match p.request with
  | some v => return v
  | none => raise "RuntimeError" "The request instance has not been set on this response."

def messagePart? (s : State) (name : String) : Option (Eval Value) :=
  let test := fun (b : Bool) => some (pure (ofBool b) : Eval Value)
  match s, name with
  | .headers _, "encoding" => some (pure (ofString "ascii"))
  | .headers h, "raw" => some (do
      newList (← h.fields.mapM fun (n, v) => newTuple [ofBytes (unlatin n), ofBytes (unlatin v)]))
  | .request q, "method" => some (pure (ofText q.method))
  | .request q, "url" => some (newUrl q.url)
  | .request q, "headers" => some (newKnown "Headers" (.headers q.headers))
  | .request q, "content" => some (do
      return ofBytes (← bodyBytes "RequestNotRead" "request" q.body))
  | .request _, "extensions" | .response _, "extensions" => some (newDict [])
  | .response p, "status_code" => some (pure p.status)
  | .response p, "headers" => some (newKnown "Headers" (.headers p.headers))
  | .response p, "content" => some (do return ofBytes (← responseBytes p))
  | .response p, "encoding" => some (pure (ofText p.encoding))
  | .response p, "charset_encoding" => some (pure ((p.headers.charset?.map ofText).getD nil))
  | .response p, "text" => some (do
      let b ← responseBytes p
      let codec ← codecNamed "decode" p.encoding
      return ofText (← decoded codec (chars "replace") b))
  | .response p, "reason_phrase" => some (pure (ofText p.words))
  | .response p, "url" => some (do
      match (← state? (← responseRequest p)) with
      | some (.request q) => newUrl q.url
      | _ => noAttribute (← responseRequest p) "url")
  | .response p, "is_informational" => test (p.isWithin 100 199)
  | .response p, "is_success" => test (p.isWithin 200 299)
  | .response p, "is_redirect" => test (p.isWithin 300 399)
  | .response p, "is_client_error" => test (p.isWithin 400 499)
  | .response p, "is_server_error" => test (p.isWithin 500 599)
  | .response p, "is_error" => test (p.isWithin 400 599)
  | .response p, "has_redirect_location" => test p.isRedirection
  | .response p, "is_closed" | .response p, "is_stream_consumed" => test (match p.body with
      | .read _ | .consumed => true
      | .waiting .. => false)
  | .response _, "http_version" => some (pure (ofString "HTTP/1.1"))
  | .response _, "history" => some (newList [])
  | .response _, "next_request" => some (pure nil)
  | .response _, "default_encoding" => some (pure (ofString "utf-8"))
  | .response _, "elapsed" => some (raise "RuntimeError"
      "'.elapsed' may only be accessed after the response has been read or closed.")
  | .response p, "request" => some (responseRequest p)
  | _, _ => none

def readMethod (owner : String) : Native :=
  .method owner "read" "" fun _ v _ => do
    match (← unwrap v), (← state? v) with
    | .ref i, some (.request q) =>
      match q.body with
      | .waiting chunks _ =>
        setCell i (.known "Request" (.request { q with body := .read chunks.flatten }))
        return ofBytes chunks.flatten
      | b => return ofBytes (← bodyBytes "StreamConsumed" "request" b)
    | .ref i, some (.response p) =>
      match p.body with
      | .waiting chunks _ =>
        match p.headers.decodeContent chunks with
        | .ok bytes =>
          setCell i (.known "Response" (.response { p with body := .read bytes }))
          return ofBytes bytes
        | .error why => raise "DecodingError" why
      | b => return ofBytes (← bodyBytes "StreamConsumed" "response" b)
    | _, _ => return nil

def requestMethods : List Native := [readMethod "Request"]

def responseMethods : List Native := [
  readMethod "Response",
  .method "Response" "json" "**kwargs" fun r v a => do
    match (← state? v) with
    | some (.response p) =>
      r.call (.ref (functionCell "json.loads")) ⟨[ofBytes (← responseBytes p)], a.keyword⟩
    | _ => return nil,
  .method "Response" "raise_for_status" "" fun _ v _ => do
    match (← state? v) with
    | some (.response p) =>
      match p.request with
      | none =>
        raise "RuntimeError" ("Cannot call \x60raise_for_status\x60 as the request instance has " ++
          "not been set on this response.")
      | some request =>
        if p.isWithin 200 299 then return v
        let url := match (← state? request) with
          | some (.request q) => q.url.text
          | _ => []
        throw (.raised (← newExceptionOf (classCell "HTTPStatusError")
          [ofText (p.failureText url)] [("request", request), ("response", v)]))
    | _ => return nil,
  .method "Response" "close" "" fun _ _ _ => return nil]

end Sandbox

end MacroExpand
