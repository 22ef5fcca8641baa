import MacroExpand.Sandbox.Messages
import MacroExpand.Syntax.Lexer
import MacroExpand.Text.Search

/-!
# Paths and the files behind them
-/

set_option autoImplicit false

namespace MacroExpand

namespace Sandbox

/-! ## Paths -/

def pathValue (r : Interpreter) (v : Value) : Eval Value := do
  let plain ← unwrap v
  match plain, (← state? v), (← callOwn? r v "__fspath__" []) with
  | .scalar (.str _), _, _ | .scalar (.bytes _), _, _ => return plain
  | _, _, some x =>
    match x with
    | .scalar (.str _) | .scalar (.bytes _) => return x
    | x =>
      typeError ("expected " ++ (← typeName v) ++ ".__fspath__() to return str or bytes, not " ++
        (← typeName x))
  | _, some (.path p), none => return ofText p.text
  | _, _, none =>
    typeError ("expected str, bytes or os.PathLike object, not " ++ (← typeName v))

def pathFrom (r : Interpreter) (flavour : PathFlavour) (v : Value) : Eval PathText := do
  match (← state? v) with
  | some (.path p) => return if p.flavour = flavour then p else .ofText flavour p.text
  | _ =>
    match (← pathValue r v) with
    | .scalar (.str t) => return .ofText flavour t
    | x =>
      typeError ("argument should be a str object or an os.PathLike object returning str, not " ++
        (← classText x))

def newPath (cls : String) (p : PathText) : Eval Value := newKnown cls (.path p)

def selfPath (v : Value) : Eval (String × PathText) := do
  match (← core? v) with
  | some (.known cls (.path p)) => return (cls, p)
  | _ => return ("PosixPath", .posix [])

def workingDirectory : Eval PathText := do return Files.pathOf (← get).files.home

def nodeAt (p : PathText) : Eval (Option FileNode) := do
  let files := (← get).files
  return files.at? (files.place p)

def readFile (p : PathText) : Eval (List UInt8) := do
  match (← get).files.read p with
  | .ok bytes => return bytes
  | .error e => raiseFile e

def changeFiles (change : Files → Except FileError Files) : Eval Unit := do
  match change (← get).files with
  | .ok files => modify fun m => { m with files }
  | .error e => raiseFile e

def needNode (p : PathText) : Eval FileNode := do
  match (← nodeAt p) with
  | some node => return node
  | none =>
    let files := (← get).files
    raiseFile ⟨(files.obstacle (files.place p)).getD .missing, p.text⟩

def namesIn (p : PathText) : Eval (List Text) := do
  let files := (← get).files
  let place := files.place p
  if files.isDirectory place then
    let names := files.nodes.filterMap fun n =>
      if n.1.dropLast = place ∧ n.1 ≠ place then n.1.getLast? else none
    return names.mergeSort fun a b => compareTexts a b != .gt
  else raiseFile ⟨if files.isFile place then .notDirectory else .missing, p.text⟩

def endingsOf (name : Text) : List Text :=
  let name := if name.head? = some '.' then name.drop 1 else name
  if name.getLast? = some '.' then []
  else ((name.splitOn '.').drop 1).map ('.' :: ·)

def wholeParts (p : PathText) : List Text :=
  (if p.drive.isEmpty && p.root.isEmpty then [] else [p.drive ++ p.root]) ++ p.parts

def pathsAbove (p : PathText) : List PathText :=
  (List.range p.parts.length).map fun k => { p with parts := p.parts.take (p.parts.length - 1 - k) }

def pathPart? (cls : String) (p : PathText) (name : String) : Option (Eval Value) :=
  let text := fun (t : Text) => some (pure (ofText t) : Eval Value)
  match name with
  | "name" => text p.name
  | "stem" => text p.stem
  | "suffix" => text p.suffix
  | "drive" => text p.drive
  | "root" => text p.root
  | "anchor" => text (p.drive ++ p.root)
  | "suffixes" => some (newList ((endingsOf p.name).map ofText))
  | "parts" => some (newTuple ((wholeParts p).map ofText))
  | "parent" => some (newPath cls p.parent)
  | "parents" => some (do newTuple (← (pathsAbove p).mapM (newPath cls)))
  | _ => none

def requireName (cls : String) (p : PathText) : Eval Unit := do
  if p.name.isEmpty then
    valueError (String.ofList (callText cls [Text.quoted p.text]) ++ " has an empty name")

def renamed (cls : String) (p : PathText) (name : Text) : Eval PathText := do
  requireName cls p
  let given := PathText.ofText p.flavour name
  let last := name.getLast?
  if last = none || last = some '/' || given.parts ≠ [name] || !given.root.isEmpty then
    valueError ("Invalid name " ++ String.ofList (Text.quoted name))
  return { p with parts := p.parts.dropLast ++ [name] }

def relativePath (r : Interpreter) (p : PathText) (others : List Value) : Eval PathText := do
  match (← others.mapM (pathFrom r p.flavour)) with
  | [] => typeError "need at least one argument"
  | first :: rest =>
    let other := rest.foldl PathText.join first
    match p.relativeTo other with
    | some q => return q
    | none =>
      valueError (String.ofList (Text.quoted p.text ++ chars " is not in the subpath of " ++
        Text.quoted other.text ++ chars " OR one path is relative and the other is absolute."))

def pathFits (p pattern : PathText) : Bool :=
  let whole := wholeParts p
  let wanted := wholeParts pattern
  let isRooted := !pattern.root.isEmpty || !pattern.drive.isEmpty
  if isRooted then
    whole.length = wanted.length && (whole.zip wanted).all fun (x, q) => Wildcard.fits q x
  else
    wanted.length ≤ whole.length &&
      ((whole.drop (whole.length - wanted.length)).zip wanted).all fun (x, q) => Wildcard.fits q x

def patternText (v : Value) : Eval Text := do
  match (← text? v) with
  | some t => return t
  | none => typeError ("'" ++ (← typeName v) ++ "' object is not subscriptable")

def purePathMethods : List Native := [
  method "is_absolute" "" fun _ v _ => do return ofBool (← selfPath v).2.isAbsolute,
  method "is_reserved" "" fun _ _ _ => return ofBool false,
  method "as_posix" "" fun _ v _ => do
    return ofText ((← selfPath v).2.text.map fun c => if c == '\\' then '/' else c),
  method "as_uri" "" fun _ v _ => do
    let p := (← selfPath v).2
    if !p.isAbsolute then valueError "relative path can't be expressed as a file URI"
    return ofText (chars "file://" ++ Url.quote (fun c => Url.isUnreserved c || c == '/') p.text),
  method "__fspath__" "" fun _ v _ => do return ofText (← selfPath v).2.text,
  method "__bytes__" "" fun _ v _ => do return ofBytes (← selfPath v).2.text.utf8,
  method "joinpath" "*args" fun r v a => do
    let (cls, p) ← selfPath v
    newPath cls ((← a.positional.mapM (pathFrom r p.flavour)).foldl PathText.join p),
  method "with_name" "name" fun _ v a => do
    let (cls, p) ← selfPath v
    newPath cls (← renamed cls p (← patternText (a.under "name"))),
  method "with_stem" "stem" fun r v a => do
    let (cls, p) ← selfPath v
    newPath cls (← renamed cls p (← selfText (← binary r .add (a.under "stem") (ofText p.suffix)))),
  method "with_suffix" "suffix" fun _ v a => do
    let (cls, p) ← selfPath v
    let t ← match (← text? (a.under "suffix")) with
      | some t => pure t
      | none => typeError ("argument of type '" ++ (← typeName (a.under "suffix")) ++ "' is not iterable")
    if t.contains '/' || (!t.isEmpty && t.head? ≠ some '.') || t = ['.'] then
      valueError ("Invalid suffix " ++ String.ofList (Text.quoted t))
    requireName cls p
    newPath cls { p with parts := p.parts.dropLast ++ [p.stem ++ t] },
  method "relative_to" "*other" fun r v a => do
    let (cls, p) ← selfPath v
    newPath cls (← relativePath r p a.positional),
  method "is_relative_to" "*other" fun r v a => do
    match (← attempt (relativePath r (← selfPath v).2 a.positional)) with
    | .ok _ => return ofBool true
    | .error (.raised e) =>
      if (← isKnown e "ValueError") then return ofBool false else throw (.raised e)
    | .error e => throw e,
  method "match" "path_pattern" fun _ v a => do
    let p := (← selfPath v).2
    let pattern := PathText.ofText p.flavour (← patternText (a.under "path_pattern"))
    if (wholeParts pattern).isEmpty then valueError "empty pattern"
    return ofBool (pathFits p pattern)]
where
  method (name parameters : String) (run : Interpreter → Value → Arguments → Eval Value) : Native :=
    .method "PurePath" name parameters run

/-! ## Files -/

def nodeTest (name : String) (test : Option FileNode → Bool) : Native :=
  .method "Path" name "" fun _ v _ => do return ofBool (test (← nodeAt (← selfPath v).2))

def isFileNode : Option FileNode → Bool
  | some (.file _) => true
  | _ => false

def fileCodec (a : Arguments) : Eval (Codec × Text) := do
  let given := fun (name standard : String) => do
    match a.under name with
    | .scalar .nil => return chars standard
    | v =>
      match (← text? v) with
      | some t => return t
      | none => badArgument ("open() argument '" ++ name ++ "'") "str or None" v
  let codec ← codecNamed "open" (← given "encoding" "utf-8")
  return (codec, ← given "errors" "strict")

def pathsFitting (cls : String) (p : PathText) (pattern : Text) : Eval Value := do
  if pattern.isEmpty then valueError "Unacceptable pattern: ''"
  let wanted := PathText.posix pattern
  if !wanted.root.isEmpty then
    raise "NotImplementedError" "Non-relative patterns are unsupported"
  let files := (← get).files
  let place := files.place p
  let below := ((place, FileNode.directory) :: files.nodes).filterMap fun (spot, node) =>
    if place.isPrefixOf spot then some (spot.drop place.length, node) else none
  let onlyDirectories := wanted.parts.getLast? = some Wildcard.anyParts
  let found := below.filter fun (parts, node) =>
    Wildcard.fitsParts wanted.parts parts && (!onlyDirectories || node == .directory) &&
      (!parts.isEmpty || onlyDirectories)
  let sorted := (found.map Prod.fst).eraseDups.mergeSort Files.placeLE
  alloc (.iterator "generator"
    (← sorted.mapM fun parts => newPath cls { p with parts := p.parts ++ parts }))

def pathMethods : List Native := [
  nodeTest "exists" Option.isSome, nodeTest "is_file" isFileNode,
  nodeTest "is_dir" (· == some .directory), nodeTest "is_symlink" fun _ => false,
  nodeTest "is_socket" fun _ => false, nodeTest "is_fifo" fun _ => false,
  nodeTest "is_block_device" fun _ => false, nodeTest "is_char_device" fun _ => false,
  method "is_mount" "" fun _ v _ => do return ofBool ((← selfPath v).2.text = ['/']),
  method "resolve" "strict=" fun r v a => do
    let (cls, p) ← selfPath v
    if (← truthy r (a.under "strict")) then discard (needNode p)
    newPath cls ((← workingDirectory).resolve p),
  method "absolute" "" fun _ v _ => do
    let (cls, p) ← selfPath v
    newPath cls ((← workingDirectory).join p),
  method "samefile" "other_path" fun r v a => do
    let files := (← get).files
    let p := (← selfPath v).2
    let q ← pathFrom r .posix (a.under "other_path")
    discard (needNode p)
    discard (needNode q)
    return ofBool (files.place p = files.place q),
  method "stat" "* follow_symlinks=" fun _ v _ => do
    let (mode, size) ← match (← needNode (← selfPath v).2) with
      | .file b => pure (33188, b.length)
      | .directory => pure (16877, 4096)
    alloc (.object (classCell "stat_result") [("st_mode", ofNat mode), ("st_size", ofNat size)] none),
  method "read_bytes" "" fun _ v _ => do return ofBytes (← readFile (← selfPath v).2),
  method "read_text" "encoding= errors=" fun _ v a => do
    let (codec, errors) ← fileCodec a
    return ofText (Text.unifyLineEnds (← decoded codec errors (← readFile (← selfPath v).2))),
  method "write_bytes" "data" fun _ v a => do
    match (← bytes? (a.under "data")) with
    | none => typeError ("memoryview: a bytes-like object is required, not '" ++
        (← typeName (a.under "data")) ++ "'")
    | some b =>
      let p := (← selfPath v).2
      changeFiles fun files => files.write p b
      return ofNat b.length,
  method "write_text" "data encoding= errors= newline=" fun _ v a => do
    match (← text? (a.under "data")) with
    | none => typeError ("data must be str, not " ++ (← classData (← classOf (a.under "data"))).name)
    | some t =>
      let (codec, errors) ← fileCodec a
      let p := (← selfPath v).2
      let bytes ← encoded codec errors t
      changeFiles fun files => files.write p bytes
      return ofNat t.length,
  method "mkdir" "mode= parents= exist_ok=" fun r v a => do
    let p := (← selfPath v).2
    let parents ← truthy r (a.under "parents")
    if (← truthy r (a.under "exist_ok")) && (← nodeAt p) == some .directory then return nil
    changeFiles fun files =>
      if parents && (files.at? (files.place p)).isNone then files.makeDirectories p
      else files.makeDirectory p
    return nil,
  method "rmdir" "" fun _ v _ => do
    let p := (← selfPath v).2
    changeFiles fun files => files.drop p true
    return nil,
  method "unlink" "missing_ok=" fun r v a => do
    let p := (← selfPath v).2
    if (← truthy r (a.under "missing_ok")) && (← nodeAt p).isNone then return nil
    changeFiles fun files => files.drop p false
    return nil,
  method "touch" "mode= exist_ok=" fun r v a => do
    let p := (← selfPath v).2
    let allowed ← match a.named? "exist_ok" with
      | some b => truthy r b
      | none => pure true
    if (← nodeAt p).isSome then
      if allowed then return nil else raiseFile ⟨.exists, p.text⟩
    changeFiles fun files => files.write p []
    return nil,
  method "iterdir" "" fun _ v _ => do
    let (cls, p) ← selfPath v
    let paths ← (← namesIn p).mapM fun n => newPath cls { p with parts := p.parts ++ [n] }
    alloc (.iterator "generator" paths),
  method "glob" "pattern" fun _ v a => do
    let (cls, p) ← selfPath v
    pathsFitting cls p (← patternText (a.under "pattern")),
  method "rglob" "pattern" fun _ v a => do
    let (cls, p) ← selfPath v
    pathsFitting cls p (chars "**/" ++ (← patternText (a.under "pattern")))]
where
  method (name parameters : String) (run : Interpreter → Value → Arguments → Eval Value) : Native :=
    .method "Path" name parameters run

def pathFunctions : List Native := [
  .method "Path" "cwd" "" fun _ _ _ => do newPath "PosixPath" (← workingDirectory)]

def pathMakers : List (String × Maker) :=
  [("PurePath", "PurePosixPath"), ("PurePosixPath", "PurePosixPath"), ("Path", "PosixPath"),
    ("PosixPath", "PosixPath"), ("PureWindowsPath", "PureWindowsPath")].map fun (name, cls) =>
  (name, fun r a => do
    let flavour : PathFlavour := if cls == "PureWindowsPath" then .windows else .posix
    match (← a.positional.mapM (pathFrom r flavour)) with
    | [] => newPath cls (.ofText flavour [])
    | p :: rest => newPath cls (rest.foldl PathText.join p))

/-! ## Paths as texts -/

def pathArgument (r : Interpreter) (v : Value) : Eval (Text × (Text → Value)) := do
  match (← pathValue r v) with
  | .scalar (.bytes b) => return (latin b, fun t => ofBytes (unlatin t))
  | x => return (← selfText x, ofText)

def joinTexts (a b : Text) : Text :=
  if b.head? = some '/' then b
  else if a.isEmpty || a.getLast? = some '/' then a ++ b
  else a ++ '/' :: b

def splitText (t : Text) : Text × Text :=
  let last := (t.reverse.takeWhile (· != '/')).reverse
  let front := t.take (t.length - last.length)
  let trimmed := (front.reverse.dropWhile (· == '/')).reverse
  (if trimmed.isEmpty then front else trimmed, last)

def splitEnding (t : Text) : Text × Text :=
  let last := (t.reverse.takeWhile (· != '/')).reverse
  let front := t.take (t.length - last.length)
  let dots := last.takeWhile (· == '.')
  let body := last.drop dots.length
  match body.reverse.findIdx? (· == '.') with
  | some back =>
    let place := body.length - 1 - back
    (front ++ dots ++ body.take place, body.drop place)
  | none => (t, [])

def normalParts (rooted : Bool) (done : List Text) : List Text → List Text
  | [] => done.reverse
  | part :: rest =>
    if part = ['.', '.'] then
      match done with
      | [] => normalParts rooted (if rooted then [] else [part]) rest
      | last :: before =>
        if last = ['.', '.'] then normalParts rooted (part :: done) rest
        else normalParts rooted before rest
    else normalParts rooted (part :: done) rest

def normalText (t : Text) : Text :=
  let p := PathText.posix t
  let parts := normalParts (!p.root.isEmpty) [] p.parts
  PathText.text { p with parts }

def commonFront {α : Type} [BEq α] (xs ys : List α) : List α :=
  ((xs.zip ys).takeWhile fun (x, y) => x == y).map Prod.fst

def pathFunction (name parameter : String) (f : Text → (Text → Value) → Eval Value) : Native :=
  .declared ("os.path." ++ name) name parameter fun r a => do
    let (t, back) ← pathArgument r (a.under parameter)
    f t back

def placeTest (name parameter : String) (test : Option FileNode → Bool) : Native :=
  .declared ("os.path." ++ name) name parameter fun r a => do
    let v := a.under parameter
    if (index? (← unwrap v)).isSome then return ofBool false
    match (← attempt (pathArgument r v)) with
    | .ok (t, _) => do return ofBool (test (← nodeAt (.posix t)))
    | .error (.raised e) =>
      if (← isKnown e "TypeError") then
        typeError ("stat: path should be string, bytes, os.PathLike or integer, not " ++
          (← typeName v))
      throw (.raised e)
    | .error e => throw e

def joinPaths (r : Interpreter) (first : Value) (rest : List Value) : Eval Value := do
  let (t, back) ← pathArgument r first
  let isBytes := match back [] with
    | .scalar (.bytes _) => true
    | _ => false
  let texts ← rest.mapM fun v => do
    match (← attempt (pathArgument r v)) with
    | .ok (x, other) =>
      if (other [] ≠ back []) then typeError "Can't mix strings and bytes in path components"
      return x
    | .error (.raised e) =>
      if (← isKnown e "TypeError") then
        typeError ("join() argument must be str, bytes, or os.PathLike object, not '" ++
          (← typeName v) ++ "'")
      throw (.raised e)
    | .error e => throw e
  let joined := texts.foldl joinTexts t
  return if isBytes then ofBytes (unlatin joined) else ofText joined

def placeNatives : List Native := [
  .declared "os.path.join" "join" "a *p" fun r a => joinPaths r (a.under "a") a.positional,
  pathFunction "basename" "p" fun t back => return back (splitText t).2,
  pathFunction "dirname" "p" fun t back => return back (splitText t).1,
  pathFunction "split" "p" fun t back => newTuple [back (splitText t).1, back (splitText t).2],
  pathFunction "splitext" "p" fun t back =>
    newTuple [back (splitEnding t).1, back (splitEnding t).2],
  pathFunction "splitdrive" "p" fun t back => newTuple [back [], back t],
  pathFunction "normcase" "s" fun t back => return back t,
  pathFunction "normpath" "path" fun t back => return back (normalText t),
  pathFunction "abspath" "path" fun t back => do
    return back (normalText (joinTexts (← workingDirectory).text t)),
  pathFunction "realpath" "filename" fun t back => do
    return back (normalText (joinTexts (← workingDirectory).text t)),
  pathFunction "isabs" "s" fun t _ => return ofBool (t.head? = some '/'),
  .declared "os.path.relpath" "relpath" "path start=" fun r a => do
    let (t, back) ← pathArgument r (a.under "path")
    if t.isEmpty then valueError "no path specified"
    let start ← match a.under "start" with
      | .scalar .nil => pure []
      | v => do pure (← pathArgument r v).1
    let whole := fun (t : Text) => do
      return (PathText.posix (normalText (joinTexts (← workingDirectory).text t))).parts
    let target ← whole t
    let origin ← whole start
    let shared := (commonFront target origin).length
    let parts := List.replicate (origin.length - shared) ['.', '.'] ++ target.drop shared
    return back (if parts.isEmpty then ['.'] else Text.joinWith ['/'] parts),
  .declared "os.path.commonprefix" "commonprefix" "m" fun r a => do
    match (← iterate r (a.under "m")) with
    | [] => return ofText []
    | items =>
      let texts ← items.mapM fun v => do return (← pathArgument r v).1
      return ofText (texts.tail.foldl commonFront (texts.headD [])),
  .declared "os.path.commonpath" "commonpath" "paths" fun r a => do
    match (← iterate r (a.under "paths")) with
    | [] => valueError "commonpath() arg is an empty sequence"
    | items =>
      let paths ← items.mapM fun v => do return PathText.posix (← pathArgument r v).1
      let isRooted := paths.any fun p => !p.root.isEmpty
      if isRooted && paths.any fun p => p.root.isEmpty then
        valueError "Can't mix absolute and relative paths"
      let parts := (paths.map PathText.parts).tail.foldl commonFront
        ((paths.map PathText.parts).headD [])
      return ofText ((if isRooted then ['/'] else []) ++ Text.joinWith ['/'] parts),
  .declared "os.path.getsize" "getsize" "filename" fun r a => do
    match (← needNode (.posix (← pathArgument r (a.under "filename")).1)) with
    | .file b => return ofNat b.length
    | .directory => return ofNat 4096,
  placeTest "exists" "path" Option.isSome, placeTest "lexists" "path" Option.isSome,
  placeTest "isfile" "path" isFileNode, placeTest "isdir" "s" (· == some .directory),
  placeTest "islink" "path" fun _ => false,
  ⟨"os.getcwd", .none, fun _ _ _ => do return ofText (← workingDirectory).text⟩,
  .named "os.listdir" { names := ["path"] } fun r _ a => do
    let p ← match a.some? 0 "path" with
      | some v =>
        match (← attempt (pathArgument r v)) with
        | .ok (t, _) => pure (PathText.posix t)
        | .error _ =>
          typeError ("listdir: path should be string, bytes, os.PathLike, integer or None, not " ++
            (← typeName v))
      | none => pure (.posix [])
    newList ((← namesIn p).map ofText),
  .named "os.fspath" { names := ["path"], required := 1 } fun r _ a =>
    pathValue r ((a.get? 0 "path").getD nil),
  .declared "os.getenv" "getenv" "key default=" fun _ a => do
    match (← text? (a.under "key")) with
    | none => typeError ("str expected, not " ++ (← classData (← classOf (a.under "key"))).name)
    | some name =>
      match (← get).environment.find? fun e => e.1 = name with
      | some e => return ofText e.2
      | none => return a.under "default"]

end Sandbox

end MacroExpand
