import MacroExpand.Syntax.Scope
import MacroExpand.Syntax.Token

/-!
# Names and their scopes

A file, a class body, a function and a comprehension each have names of their own.  A text may be
well formed and still contradict itself about them: a parameter occurs twice, a name is declared to
belong elsewhere after it was used, or an outer name is declared that no function around binds.
`Naming.fault?` finds the first such contradiction.
-/

set_option autoImplicit false

namespace MacroExpand

namespace Naming

inductive Region where
  | file
  | classBody
  | function
  | comprehension (kind : Kind)
  /-- Annotations that are never evaluated. -/
  | annotations
  deriving DecidableEq, Repr, Inhabited

/-- How a name was met in a scope. -/
structure Sighting where
  isParameter : Bool := false
  isAssigned : Bool := false
  isImported : Bool := false
  isUsed : Bool := false
  isAnnotated : Bool := false
  isGlobal : Bool := false
  isOuter : Bool := false
  /-- Whether a comprehension binds it for each element. -/
  isElement : Bool := false
  deriving DecidableEq, Repr, Inhabited

namespace Sighting

def merge (a b : Sighting) : Sighting where
  isParameter := a.isParameter || b.isParameter
  isAssigned := a.isAssigned || b.isAssigned
  isImported := a.isImported || b.isImported
  isUsed := a.isUsed || b.isUsed
  isAnnotated := a.isAnnotated || b.isAnnotated
  isGlobal := a.isGlobal || b.isGlobal
  isOuter := a.isOuter || b.isOuter
  isElement := a.isElement || b.isElement

def isBound (s : Sighting) : Bool := s.isParameter || s.isAssigned || s.isImported

end Sighting

/-- A scope: the scopes around it, the nearest first, the names met in it and the lines of its
declarations. -/
structure Record where
  region : Region
  around : List Nat := []
  names : List (String × Sighting) := []
  declarations : List (String × Nat) := []
  /-- How many iterables of comprehensions we are in. -/
  iterables : Nat := 0
  /-- Whether the target of a comprehension is being met. -/
  inTarget : Bool := false
  deriving Repr, Inhabited

def Record.sighting (s : Record) (name : String) : Sighting :=
  ((s.names.find? fun e => e.1 == name).map Prod.snd).getD {}

/-- All scopes met so far in their order, and those that are open, the innermost first. -/
structure Survey where
  records : Array Record := #[{ region := .file }]
  opened : List Nat := [0]
  /-- Whether annotations are never evaluated. -/
  postponed : Bool := false
  deriving Inhabited

abbrev Visit := StateT Survey (Except SourceFault)

def refuse {α : Type} (line : Nat) (message : String) : Visit α :=
  throw ⟨.grammar, message, line, 0⟩

def current : Visit Record := do
  let s ← get
  return s.records.getD (s.opened.headD 0) default

def changeAt (k : Nat) (change : Record → Record) : Visit Unit :=
  modify fun s => { s with records := s.records.modify k change }

def change (f : Record → Record) : Visit Unit := do changeAt ((← get).opened.headD 0) f

def Record.note (s : Record) (name : String) (sighting : Sighting) : Record :=
  if s.names.any fun e => e.1 == name then
    { s with names := s.names.map fun e => if e.1 == name then (name, e.2.merge sighting) else e }
  else { s with names := s.names ++ [(name, sighting)] }

def meet (line : Nat) (name : String) (sighting : Sighting) : Visit Unit := do
  let s ← current
  let known := s.sighting name
  if known.isParameter && sighting.isParameter then
    refuse line ("duplicate argument '" ++ name ++ "' in function definition")
  if s.inTarget && (known.isGlobal || known.isOuter) then
    refuse line
      ("comprehension inner loop cannot rebind assignment expression target '" ++ name ++ "'")
  change (·.note name { sighting with isElement := s.inTarget })

def within (region : Region) (act : Visit Unit) : Visit Unit := do
  let iterables := (← current).iterables
  modify fun s => { s with
    records := s.records.push { region, around := s.opened, iterables }
    opened := s.records.size :: s.opened }
  act
  modify fun s => { s with opened := s.opened.tail }

def refuseInAnnotation (line : Nat) (what : String) : Visit Unit := do
  if (← current).region = .annotations then
    refuse line ("'" ++ what ++ "' can not be used within an annotation")

def declare (line : Nat) (what : String) (sighting : Sighting) : List String → Visit Unit
  | [] => pure ()
  | name :: rest => do
      let known := (← current).sighting name
      if known.isParameter then
        refuse line ("name '" ++ name ++ "' is parameter and " ++ what)
      if known.isUsed then
        refuse line ("name '" ++ name ++ "' is used prior to " ++ what ++ " declaration")
      if known.isAnnotated then
        refuse line ("annotated name '" ++ name ++ "' can't be " ++ what)
      if known.isAssigned then
        refuse line ("name '" ++ name ++ "' is assigned to before " ++ what ++ " declaration")
      meet line name sighting
      change fun s => { s with declarations := s.declarations ++ [(name, line)] }
      declare line what sighting rest

def bindOutside (line : Nat) (name : String) : List Nat → Visit Unit
  | [] => pure ()
  | k :: rest => do
      let s := (← get).records.getD k default
      match s.region with
      | .comprehension _ =>
        let known := s.sighting name
        if known.isElement && (known.isAssigned || known.isGlobal) then
          refuse line ("assignment expression cannot rebind comprehension iteration variable '" ++
            name ++ "'")
        bindOutside line name rest
      | .function =>
        let sighting : Sighting :=
          if (s.sighting name).isGlobal then { isGlobal := true } else { isOuter := true }
        meet line name sighting
        changeAt k (·.note name { isAssigned := true })
      | .file =>
        meet line name { isGlobal := true }
        changeAt k (·.note name { isGlobal := true })
      | .classBody =>
        refuse line
          "assignment expression within a comprehension cannot be used in a class body"
      | .annotations => bindOutside line name rest

def meetImport (whole : Bool) (t : Tree) : Visit Unit := do
  match t.kind with
  | .alias "*" _ =>
    if (← current).region ≠ .file then
      refuse t.mark.line "import * only allowed at module level"
  | _ => (Scope.importedName whole t).forM fun name => meet t.mark.line name { isImported := true }

def meetParameters (parameters : Tree) : Visit Unit :=
  [0, 1, 3, 2, 5].forM fun k => (parameters.slot k).forM fun t =>
    match t.kind with
    | .arg name _ => meet t.mark.line name { isParameter := true }
    | _ => pure ()

def comprehensionName : Kind → String
  | .listComp => "list comprehension"
  | .setComp => "set comprehension"
  | .dictComp => "dict comprehension"
  | _ => "generator expression"

def iterable (act : Visit Unit) : Visit Unit := do
  change fun s => { s with iterables := s.iterables + 1 }
  act
  change fun s => { s with iterables := s.iterables - 1 }

def targeted (act : Visit Unit) : Visit Unit := do
  change fun s => { s with inTarget := true }
  act
  change fun s => { s with inTarget := false }

def defaults (each : Tree → Visit Unit) (parameters : Tree) : Visit Unit := do
  (parameters.slot 6).forM each
  (parameters.slot 4).forM each

def functionAnnotations (each : Tree → Visit Unit) (parameters : Tree) : Visit Unit :=
  [0, 1, 2, 5, 3].forM fun k => (parameters.slot k).forM fun t => (t.slot 0).forM each

def annotated (act : Visit Unit) : Visit Unit := do
  if (← get).postponed then within .annotations act else act

def comprehension (each : Tree → Visit Unit) (kind : Kind) (clauses made : List Tree) : Visit Unit := do
  let source := fun (t : Tree) => (t.slot 1).forM each
  let bindEach := fun (t : Tree) => targeted ((t.slot 0).forM each)
  let conditions := fun (t : Tree) => (t.slot 2).forM each
  match clauses with
  | [] => pure ()
  | first :: rest => do
      iterable (source first)
      within (.comprehension kind) do
        bindEach first
        conditions first
        rest.forM fun clause => do
          bindEach clause
          iterable (source clause)
          conditions clause
        made.forM each

def visit : Nat → Tree → Visit Unit
  | 0, _ => pure ()
  | depth + 1, t =>
    let line := t.mark.line
    let each := fun (k : Nat) => (t.slot k).forM (visit depth)
    match t.kind with
    | .functionDef name _ _ => do
        let parameters := t.part 0
        meet line name { isAssigned := true }
        defaults (visit depth) parameters
        annotated (functionAnnotations (visit depth) parameters)
        annotated (each 3)
        each 2
        within .function do
          meetParameters parameters
          each 1
    | .lambdaExpr => do
        defaults (visit depth) (t.part 0)
        within .function do
          meetParameters (t.part 0)
          each 1
    | .classDef name => do
        meet line name { isAssigned := true }
        each 0
        each 1
        each 3
        within .classBody (each 2)
    | .annAssign simple => do
        match (t.part 0).kind with
        | .name id _ =>
          let s ← current
          let known := s.sighting id
          if simple && s.region ≠ .file then
            if known.isGlobal then refuse line ("annotated name '" ++ id ++ "' can't be global")
            if known.isOuter then refuse line ("annotated name '" ++ id ++ "' can't be nonlocal")
          if simple then meet line id { isAssigned := true, isAnnotated := true }
          else if !(t.slot 2).isEmpty then meet line id { isAssigned := true }
        | _ => each 0
        annotated (each 1)
        each 2
    | .tryStmt _ => do
        each 0
        each 2
        each 1
        each 3
    | .exceptHandler name => do
        each 0
        name.forM fun name => meet line name { isAssigned := true }
        each 1
    | .importStmt => (t.slot 0).forM (meetImport true)
    | .importFrom _ _ => (t.slot 0).forM (meetImport false)
    | .globalDecl names => declare line "global" { isGlobal := true } names
    | .nonlocalDecl names => declare line "nonlocal" { isOuter := true } names
    | .name id usage =>
      meet line id { isUsed := usage = .load, isAssigned := usage ≠ .load }
    | .namedExpr => do
        refuseInAnnotation line "named expression"
        let s ← current
        if s.iterables > 0 then
          refuse line
            "assignment expression cannot be used in a comprehension iterable expression"
        match s.region, (t.part 0).kind with
        | .comprehension _, .name id _ => bindOutside line id (← get).opened
        | _, _ => pure ()
        each 1
        each 0
    | .listComp | .setComp | .generatorExp => comprehension (visit depth) t.kind (t.slot 1) (t.slot 0)
    | .dictComp => comprehension (visit depth) t.kind (t.slot 2) (t.slot 1 ++ t.slot 0)
    | .yieldExpr | .yieldFrom => do
        refuseInAnnotation line "yield expression"
        each 0
        match (← current).region with
        | .comprehension kind =>
          refuse line ("'yield' inside " ++ comprehensionName kind)
        | _ => pure ()
    | .awaitExpr => do
        refuseInAnnotation line "await expression"
        each 0
    | .matchMapping name | .matchStar name | .matchAs name => do
        t.children.forM (visit depth)
        name.forM fun name => meet line name { isAssigned := true }
    | _ => t.children.forM (visit depth)

/-! ## Outer names -/

def isBoundAround (records : Array Record) (name : String) : List Nat → Bool
  | [] => false
  | k :: rest =>
    let s := records.getD k default
    match s.region with
    | .function | .comprehension _ =>
      let known := s.sighting name
      if known.isGlobal then false
      else known.isOuter || known.isBound || isBoundAround records name rest
    | .classBody => name == "__class__" || isBoundAround records name rest
    | .file | .annotations => isBoundAround records name rest

def outerFault? (records : Array Record) (s : Record) (name : String) (known : Sighting) :
    Option SourceFault :=
  let line := ((s.declarations.find? fun d => d.1 == name).map Prod.snd).getD 0
  let fault := fun (message : String) => some (SourceFault.mk .grammar message line 0)
  if !known.isOuter then none
  else if known.isGlobal then fault ("name '" ++ name ++ "' is nonlocal and global")
  else if s.region = .file then fault "nonlocal declaration not allowed at module level"
  else if isBoundAround records name s.around then none
  else fault ("no binding for nonlocal '" ++ name ++ "' found")

def Record.fault? (records : Array Record) (s : Record) : Option SourceFault :=
  s.names.findSome? fun (name, known) => outerFault? records s name known

/-- The first contradiction in what statements, or an expression, say about names; `postponed` if
annotations are not evaluated. -/
def fault? (postponed : Bool) (trees : List Tree) : Option SourceFault :=
  match (trees.forM (visit (Tree.sizeAll trees))).run { postponed } with
  | .error fault => some fault
  | .ok (_, survey) => survey.records.toList.findSome? (Record.fault? survey.records)

end Naming

end MacroExpand
