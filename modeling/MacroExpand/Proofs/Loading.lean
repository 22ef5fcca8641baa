import MacroExpand.Proofs.Performing

/-!
# Modules of importers

An importer registers a module before it runs the body, and never drops one.  So whoever loads a place that is
registered gets the module of the first load, nothing else happens, and that the body failed is forgotten.  A call that
fails has left the importer as it was, or has added the module that it was to load, and what its body has loaded.
-/

set_option autoImplicit false

namespace MacroExpand

namespace Sandbox

variable {α β : Type} {m m' m'' : Machine} {k : Nat} {p : Place} {v : Value}

/-! ## What importers have registered -/

def Machine.registered (m : Machine) (k : Nat) : List (Place × Value) := (m.importers.getD k default).modules

def Machine.registered? (m : Machine) (k : Nat) (p : Place) : Option Value :=
  ((m.registered k).find? fun e => e.1 = p).map Prod.snd

/-- Importers look for modules where they did, and have registered what they had, and perhaps more behind it. -/
structure Adds (m m' : Machine) : Prop where
  count : m.importers.length ≤ m'.importers.length
  base : ∀ k < m.importers.length, (m'.importers.getD k default).base = (m.importers.getD k default).base
  modules : ∀ k < m.importers.length, ∃ added, m'.registered k = m.registered k ++ added

theorem Adds.of_same (same : m'.importers = m.importers) : Adds m m' where
  count := same ▸ Nat.le_refl _
  base := fun _ _ => by rw [same]
  modules := fun _ _ => ⟨[], by rw [Machine.registered, same, List.append_nil]; rfl⟩

theorem Adds.refl (m : Machine) : Adds m m := .of_same rfl

theorem Adds.trans (first : Adds m m') (second : Adds m' m'') : Adds m m'' where
  count := Nat.le_trans first.count second.count
  base := fun k known =>
    (second.base k (Nat.lt_of_lt_of_le known first.count)).trans (first.base k known)
  modules := fun k known => by
    obtain ⟨added, same⟩ := first.modules k known
    obtain ⟨more, same'⟩ := second.modules k (Nat.lt_of_lt_of_le known first.count)
    exact ⟨added ++ more, by rw [same', same, List.append_assoc]⟩

theorem Adds.registered? (adds : Adds m m') (known : k < m.importers.length) (found : m.registered? k p = some v) :
    m'.registered? k p = some v := by
  obtain ⟨added, same⟩ := adds.modules k known
  obtain ⟨e, isFirst, rfl⟩ := Option.map_eq_some_iff.mp found
  rw [Machine.registered?, same, List.find?_append, isFirst]
  rfl

/-! ## Actions that leave importers alone -/

def Moves (relation : Machine → Machine → Prop) (action : Eval α) : Prop := ∀ m, relation m (perform m action).2

abbrev Leaves (action : Eval α) : Prop := Moves (fun m m' => m'.importers = m.importers) action

abbrev OnlyAdds (action : Eval α) : Prop := Moves Adds action

theorem Leaves.onlyAdds {action : Eval α} (leaves : Leaves action) : OnlyAdds action := fun m => .of_same (leaves m)

theorem perform_bind_error {action : Eval α} {next : α → Eval β} {e : Signal}
    (run : perform m action = (.error e, m')) : perform m (action >>= next) = (.error e, m') := by
  have unfolded : perform m (action >>= next) = ExceptT.bindCont next (perform m action).1 (perform m action).2 := rfl
  rw [unfolded, run]
  rfl

theorem Moves.bind {relation : Machine → Machine → Prop} {action : Eval α} {next : α → Eval β}
    (trans : ∀ {a b c}, relation a b → relation b c → relation a c) (first : Moves relation action)
    (rest : ∀ a, Moves relation (next a)) : Moves relation (action >>= next) := by
  intro m
  have here := first m
  rcases run : perform m action with ⟨e | a, m'⟩ <;> rw [run] at here
  · rwa [perform_bind_error run]
  · rw [perform_bind run]
    exact trans here (rest a m')

theorem OnlyAdds.bind {action : Eval α} {next : α → Eval β} (first : OnlyAdds action) (rest : ∀ a, OnlyAdds (next a)) :
    OnlyAdds (action >>= next) := Moves.bind Adds.trans first rest

theorem Leaves.bind {action : Eval α} {next : α → Eval β} (first : Leaves action) (rest : ∀ a, Leaves (next a)) :
    Leaves (action >>= next) := Moves.bind (fun one two => two.trans one) first rest

theorem OnlyAdds.handled {action : Eval α} {handler : Signal → Eval α} (adds : OnlyAdds action)
    (handles : ∀ e, OnlyAdds (handler e)) : OnlyAdds (tryCatch action handler) := by
  intro m
  have here := adds m
  have unfolded : perform m (tryCatch action handler) = match perform m action with
      | (.ok a, m') => (.ok a, m')
      | (.error e, m') => perform m' (handler e) := by
    simp only [perform, tryCatch, tryCatchThe, MonadExceptOf.tryCatch, ExceptT.tryCatch, ExceptT.run, ExceptT.mk]
    rw [StateT.run_bind]
    rcases StateT.run action m with ⟨e | a, m'⟩ <;> rfl
  rw [unfolded]
  rcases run : perform m action with ⟨e | a, m'⟩ <;> rw [run] at here
  · exact here.trans (handles e m')
  · exact here

theorem Leaves.mapM {f : β → Eval α} (each : ∀ b, Leaves (f b)) (bs : List β) : Leaves (bs.mapM f) := by
  induction bs with
  | nil => exact fun _ => rfl
  | cons b rest ih =>
    rw [List.mapM_cons]
    exact (each b).bind fun _ => ih.bind fun _ _ => rfl

theorem leaves_pure (a : α) : Leaves (pure a : Eval α) := fun _ => rfl

theorem leaves_get : Leaves (get : Eval Machine) := fun _ => rfl

theorem leaves_alloc (cell : Cell) : Leaves (alloc cell) := fun _ => rfl

theorem leaves_cell (v : Value) : Leaves (cell? v) := by
  cases v <;> exact fun _ => rfl

theorem leaves_core (v : Value) : Leaves (core? v) := by
  refine Leaves.bind ((leaves_cell v).bind fun found => ?_) fun _ => leaves_cell _
  split <;> exact leaves_pure _

theorem leaves_raise (key message : String) : Leaves (raise key message : Eval α) := fun _ => rfl

theorem leaves_raiseSource (file : Text) (fault : SourceFault) : Leaves (raiseSource file fault : Eval α) := by
  unfold raiseSource
  split <;> exact fun _ => rfl

/-! ## Files and documents -/

theorem leaves_readFile (path : PathText) : Leaves (readFile path) := by
  refine leaves_get.bind fun m => ?_
  split <;> exact fun _ => rfl

theorem leaves_readSource (path : PathText) : Leaves (readSource path) := by
  refine (leaves_readFile path).bind fun bytes => ?_
  split
  · exact leaves_pure _
  · exact leaves_raiseSource _ _

theorem leaves_fileText (path : PathText) : Leaves (fileText path) := by
  refine (leaves_readFile path).bind fun bytes => Leaves.bind ?_ fun _ => leaves_pure _
  unfold decoded
  split
  case h_4 => split <;> exact fun _ => rfl
  all_goals exact fun _ => rfl

theorem leaves_newNumber (s : Scalar) : Leaves (newNumber s) := by
  unfold newNumber
  split
  · split <;> exact fun _ => rfl
  · exact fun _ => rfl

mutual

theorem leaves_ofJson (r : Interpreter) : ∀ j : Json, Leaves (ofJson r {} j)
  | .null | .bool _ | .str _ => leaves_pure _
  | .int n => by
    rw [ofJson]
    change Leaves (documentWhole n)
    unfold documentWhole
    split <;> exact fun _ => rfl
  | .float d => by
    rw [ofJson, documentNumber]
    split <;> exact leaves_newNumber _
  | .arr items => by
    rw [ofJson]
    exact (leaves_ofJsonItems r items).bind fun _ _ => rfl
  | .obj members => by
    rw [ofJson]
    exact (leaves_ofJsonMembers r members).bind fun _ _ => rfl

theorem leaves_ofJsonItems (r : Interpreter) : ∀ items : List Json, Leaves (ofJsonItems r {} items)
  | [] => leaves_pure _
  | j :: rest => by
    rw [ofJsonItems]
    exact (leaves_ofJson r j).bind fun _ => (leaves_ofJsonItems r rest).bind fun _ => leaves_pure _

theorem leaves_ofJsonMembers (r : Interpreter) : ∀ members : List (Text × Json), Leaves (ofJsonMembers r {} members)
  | [] => leaves_pure _
  | (name, j) :: rest => by
    rw [ofJsonMembers]
    exact (leaves_ofJson r j).bind fun _ => (leaves_ofJsonMembers r rest).bind fun _ => leaves_pure _

end

mutual

theorem leaves_ofToml : ∀ t : Toml, Leaves (ofToml t)
  | .str _ | .int _ | .bool _ => leaves_pure _
  | .datetime _ | .date _ | .time _ => fun _ => rfl
  | .float d => leaves_newNumber _
  | .arr items => by
    rw [ofToml]
    exact (leaves_ofTomlItems items).bind fun _ _ => rfl
  | .table members => by
    rw [ofToml]
    exact (leaves_ofTomlMembers members).bind fun _ _ => rfl

theorem leaves_ofTomlItems : ∀ items : List Toml, Leaves (ofTomlItems items)
  | [] => leaves_pure _
  | t :: rest => by
    rw [ofTomlItems]
    exact (leaves_ofToml t).bind fun _ => (leaves_ofTomlItems rest).bind fun _ => leaves_pure _

theorem leaves_ofTomlMembers : ∀ members : List (Text × Toml), Leaves (ofTomlMembers members)
  | [] => leaves_pure _
  | (name, t) :: rest => by
    rw [ofTomlMembers]
    exact (leaves_ofToml t).bind fun _ => (leaves_ofTomlMembers rest).bind fun _ => leaves_pure _

end

theorem leaves_readJson (r : Interpreter) (text : Text) : Leaves (readJson r {} text) := by
  unfold readJson
  split
  · exact leaves_ofJson r _
  · exact fun _ => rfl

theorem leaves_readToml (text : Text) : Leaves (readToml text) := by
  unfold readToml
  split
  · exact (leaves_ofTomlMembers _).bind fun _ _ => rfl
  · exact leaves_raise _ _

/-! ## Bodies of modules -/

/-- Programs reach the modules of importers only by asking for modules, and then the importers keep what they have. -/
structure Interpreter.OnlyAsks (r : Interpreter) : Prop where
  exec : ∀ frame statements, OnlyAdds (r.exec frame statements)
  prepare : ∀ place, OnlyAdds (r.prepare place)

variable {r : Interpreter}

theorem leaves_newModule (name : String) (bindings : List (String × Value)) : Leaves (newModule name bindings) :=
  fun _ => rfl

theorem onlyAdds_runText (asks : r.OnlyAsks) (scope : Nat) (file text : Text) :
    OnlyAdds (runText r scope file text) := by
  unfold runText
  split
  · exact (leaves_raiseSource _ _).onlyAdds
  · exact (asks.exec _ _).bind fun _ => (leaves_pure _).onlyAdds

theorem onlyAdds_loadNamed (asks : r.OnlyAsks) (name : String) (place : Place) (isPackage : Bool) :
    OnlyAdds (loadNamed r name place isPackage) := by
  unfold loadNamed
  refine leaves_get.onlyAdds.bind fun before => Moves.bind Adds.trans (fun _ => .of_same rfl) fun paths =>
    (leaves_newModule _ _).onlyAdds.bind fun made => Moves.bind Adds.trans (fun _ => .of_same rfl) fun _ => ?_
  dsimp only
  split
  · exact (leaves_pure _).onlyAdds
  · refine OnlyAdds.bind (OnlyAdds.handled ((asks.prepare place).bind fun source => ?_) fun e =>
      fun _ => .of_same rfl) fun _ => leaves_get.onlyAdds.bind fun _ => (leaves_pure _).onlyAdds
    split
    · exact (leaves_raiseSource _ _).onlyAdds
    · split
      · exact Moves.bind Adds.trans (fun _ => .of_same rfl) fun _ =>
          (asks.exec _ _).bind fun _ => (leaves_pure _).onlyAdds
      · exact (asks.exec _ _).bind fun _ => (leaves_pure _).onlyAdds

theorem leaves_moduleScope (v : Value) : Leaves (moduleScope? v) := by
  refine (leaves_cell v).bind fun found => ?_
  split <;> exact leaves_pure _

theorem leaves_scopeAt (i : Nat) : Leaves (scopeAt i) := by
  refine Leaves.bind (fun _ => rfl) fun cell => ?_
  split <;> exact leaves_pure _

theorem leaves_packageDirectory (v : Value) : Leaves (packageDirectory? v) := by
  refine (leaves_moduleScope v).bind fun scope => ?_
  split
  · exact leaves_pure _
  · refine (leaves_scopeAt _).bind fun data => ?_
    split
    · refine (leaves_core _).bind fun paths => ?_
      split <;> exact leaves_pure _
    · exact leaves_pure _

theorem leaves_importKnown (name : String) : Leaves (importParts.importKnown name) := by
  refine leaves_get.bind fun m => ?_
  split
  · exact leaves_pure _
  · exact (leaves_newModule _ _).bind fun _ _ => rfl

theorem onlyAdds_importParts (asks : r.OnlyAsks) (parts : List String) (first : Option Value) (done : String)
    (parent : Option Value) : OnlyAdds (importParts r first done parent parts) := by
  induction parts generalizing first done parent with
  | nil => exact (leaves_pure _).onlyAdds
  | cons part rest ih =>
    rw [importParts]
    refine leaves_get.onlyAdds.bind fun m => ?_
    generalize (if done.isEmpty then part else done ++ "." ++ part) = name
    extract_lets goOn make look
    -- The module of the part is bound in its parent before the next part is imported.
    have goesOn (module : Value) : OnlyAdds (goOn module) := by
      unfold goOn
      dsimp only
      split
      · refine (leaves_moduleScope _).onlyAdds.bind fun scope => ?_
        split
        · exact ((leaves_scopeAt _).bind fun _ _ => rfl).onlyAdds.bind fun _ => ih _ _ _
        · exact ih _ _ _
      · exact ih _ _ _
    have makes (bindings : List (String × Value)) : OnlyAdds (make bindings) :=
      (leaves_newModule _ _).onlyAdds.bind fun _ => Moves.bind Adds.trans (fun _ => .of_same rfl) fun _ => goesOn _
    have looks (directories : List Place) : OnlyAdds (look directories) := by
      refine leaves_get.onlyAdds.bind fun m => ?_
      dsimp only
      split
      · exact (onlyAdds_loadNamed asks _ _ _).bind goesOn
      · exact (leaves_raise _ _).onlyAdds.bind goesOn
    clear_value goOn make look
    split
    · exact goesOn _
    · split
      · exact (leaves_importKnown _).onlyAdds.bind fun _ => leaves_get.onlyAdds.bind fun _ =>
          (leaves_alloc _).onlyAdds.bind fun _ => makes _
      · split
        · exact (Leaves.mapM (fun _ => (leaves_alloc _).bind fun _ => leaves_pure _) _).onlyAdds.bind fun _ => makes _
        · exact makes _
    · split
      · exact leaves_get.onlyAdds.bind fun _ => looks _
      · refine (leaves_packageDirectory _).onlyAdds.bind fun directory => ?_
        split
        · exact looks _
        · split
          · exact (leaves_raise _ _).onlyAdds.bind looks
          · exact (leaves_raise _ _).onlyAdds.bind looks

theorem onlyAdds_importFull (asks : r.OnlyAsks) (name : String) : OnlyAdds (importFull r name) := by
  unfold importFull
  split
  · exact (leaves_raise _ _).onlyAdds.bind fun _ => onlyAdds_importParts asks _ _ _ _
  · exact onlyAdds_importParts asks _ _ _ _

/-! ## One load -/

/-- What a load of a place by an importer comes to: the module that is registered there, and nothing else happens; or a
failure before any module is made; or a module that is new.  The new one is registered before its body runs, so it is
there, and behind it what the body has loaded, whether the body ends or fails. -/
inductive Loads (k : Nat) (p : Place) (m : Machine) : Except Signal Value → Machine → Prop
  | again {v : Value} (found : m.registered? k p = some v) : Loads k p m (.ok v) m
  | refused {e : Signal} {m' : Machine} (fresh : m.registered? k p = none) (same : m'.importers = m.importers) :
      Loads k p m (.error e) m'
  | first {result : Except Signal Value} {v : Value} {m' : Machine} (fresh : m.registered? k p = none)
      (adds : Adds m m') (table : ∃ others, m'.registered k = m.registered k ++ (p, v) :: others)
      (gives : ∀ w, result = .ok w → w = v) : Loads k p m result m'

def Machine.register (m : Machine) (k : Nat) (p : Place) (v : Value) : Machine :=
  { m with importers := m.importers.modify k fun i => { i with modules := i.modules ++ [(p, v)] } }

theorem getD_register (m : Machine) (k j : Nat) (p : Place) (v : Value) (known : j < m.importers.length) :
    (m.register k p v).importers.getD j default = if k = j
      then { m.importers.getD j default with modules := m.registered j ++ [(p, v)] }
      else m.importers.getD j default := by
  simp only [Machine.register, Machine.registered, List.getD_eq_getElem?_getD, List.getElem?_modify]
  rw [List.getElem?_eq_getElem known]
  by_cases same : k = j <;> simp [same]

theorem adds_register (m : Machine) (k : Nat) (p : Place) (v : Value) : Adds m (m.register k p v) where
  count := by simp [Machine.register]
  base := fun j known => by
    rw [getD_register m k j p v known]
    split <;> rfl
  modules := fun j known => by
    rw [Machine.registered, getD_register m k j p v known]
    split
    · exact ⟨[(p, v)], rfl⟩
    · exact ⟨[], (List.append_nil _).symm⟩

theorem registered_register (known : k < m.importers.length) :
    (m.register k p v).registered k = m.registered k ++ [(p, v)] := by
  rw [Machine.registered, getD_register m k k p v known, if_pos rfl]

theorem loads_loadOnce {make : Eval (Value × Nat)} {fill : Nat → Eval Unit} (known : k < m.importers.length)
    (makes : Leaves make) (fills : ∀ scope, OnlyAdds (fill scope)) :
    Loads k p m (perform m (loadOnce k p make fill)).1 (perform m (loadOnce k p make fill)).2 := by
  have starts : perform m (importerAt k) = (.ok (m.importers.getD k default), m) := rfl
  unfold loadOnce
  rw [perform_bind starts]
  split
  case h_1 e found => exact .again (by rw [Machine.registered?, Machine.registered, found]; rfl)
  case h_2 absent =>
    have fresh : m.registered? k p = none := by rw [Machine.registered?, Machine.registered, absent]; rfl
    have here := makes m
    rcases ran : perform m make with ⟨e | ⟨module, scope⟩, made⟩ <;> rw [ran] at here
    · rw [perform_bind_error ran]
      exact .refused fresh here
    · rw [perform_bind ran]
      have known' : k < made.importers.length := here ▸ known
      have registers : perform made (register k p module) = (.ok (), made.register k p module) := rfl
      have adds := fills scope (made.register k p module)
      have table : ∃ others, (perform (made.register k p module) (fill scope)).2.registered k =
          m.registered k ++ (p, module) :: others := by
        obtain ⟨others, same⟩ := adds.modules k (by simpa [Machine.register] using known')
        refine ⟨others, ?_⟩
        rw [same, registered_register known', List.append_assoc, Machine.registered, Machine.registered, here]
        rfl
      have whole : Adds m (perform (made.register k p module) (fill scope)).2 :=
        (Adds.of_same here).trans ((adds_register made k p module).trans adds)
      dsimp only
      rw [perform_bind registers]
      rcases filled : perform (made.register k p module) (fill scope) with ⟨e | u, m'⟩ <;> rw [filled] at table whole
      · rw [perform_bind_error filled]
        exact .first fresh whole table fun w same => by cases same
      · rw [perform_bind filled]
        exact .first fresh whole table fun w same => (Except.ok.inj same).symm

theorem loads_loadPlace (asks : r.OnlyAsks) (known : k < m.importers.length) (p : Place) :
    Loads k p m (perform m (loadPlace r k p)).1 (perform m (loadPlace r k p)).2 := by
  have starts : perform m (importerAt k) = (.ok (m.importers.getD k default), m) := rfl
  have loads (name : String) (bindings : List (String × Value)) (message : Text) := loads_loadOnce (p := p) known
    (leaves_newModule name bindings) fun scope => (leaves_readSource (Files.pathOf p)).onlyAdds.bind fun text =>
      (onlyAdds_runText asks scope (Files.pathOf p).text text).bind fun _ =>
        show OnlyAdds (report .debug .sandbox message) from fun _ => .of_same rfl
  unfold loadPlace
  rw [perform_bind starts]
  dsimp only
  split
  case isTrue refuses =>
    obtain ⟨unknown, _⟩ := Bool.and_eq_true_iff.mp refuses
    refine .refused ?_ rfl
    rw [Machine.registered?, Option.map_eq_none_iff, List.find?_eq_none]
    simpa [Machine.registered] using unknown
  case isFalse => exact loads _ _ _

/-! ## Calls of an importer -/

/-- What an importer can be asked for: a module by a name, as a statement or a program does; a document or a module by
a path relative to the program; the module of a file. -/
inductive ImporterCall where
  | plain (name : String)
  | byName (name : String)
  | require (path : PathText)
  | load (path : PathText)

def ImporterCall.run (r : Interpreter) (k : Nat) : ImporterCall → Eval Value
  | .plain name => importPlain r k name
  | .byName name => importByName r k name
  | .require path => requirePath r k path
  | .load path => do loadPlace r k ((← get).files.place path)

def Machine.sibling? (m : Machine) (k : Nat) (name : String) : Option Place :=
  let place := (m.importers.getD k default).base ++ [name.toList ++ chars ".py"]
  if !name.toList.contains '.' && m.files.isFile place then some place else none

/-- The file whose module a call asks for.  Documents are read, and other names imported, without a file's module. -/
def ImporterCall.place? (m : Machine) (k : Nat) : ImporterCall → Option Place
  | .plain name => m.sibling? k name
  | .byName name => if name.startsWith "." then none else m.sibling? k name
  | .require path =>
    let full := (Files.pathOf (m.importers.getD k default).base).resolve path
    if full.suffix = chars ".json" || full.suffix = chars ".toml" then none
    else some (if m.files.isDirectory full.parts then full.parts ++ [chars "__init__.py"] else full.parts)
  | .load path => some (m.files.place path)

theorem perform_importPlain (r : Interpreter) (m : Machine) (k : Nat) (name : String) :
    perform m (importPlain r k name) = perform m (match m.sibling? k name with
      | some place => loadPlace r k place
      | none => do return (← importFull r name).1) := by
  have starts : perform m (importerAt k) = (.ok (m.importers.getD k default), m) := rfl
  unfold importPlain Machine.sibling?
  rw [perform_bind starts, perform_bind perform_get]
  dsimp only
  split <;> rfl

theorem Machine.sibling?_of_dotted {name : String} (dotted : name.toList.contains '.') : m.sibling? k name = none := by
  rw [Machine.sibling?, dotted]
  rfl

theorem perform_importByName (r : Interpreter) (m : Machine) (k : Nat) {name : String}
    (absolute : ¬name.startsWith ".") :
    perform m (importByName r k name) = perform m (if name.toList.contains '.'
      then do return (← importFull r name).2 else importPlain r k name) := by
  unfold importByName
  rw [if_neg absolute]

theorem perform_requirePath (r : Interpreter) (m : Machine) (k : Nat) (path : PathText) :
    let full := (Files.pathOf (m.importers.getD k default).base).resolve path
    perform m (requirePath r k path) = perform m (
      if full.suffix = chars ".json" then do readJson r {} (← fileText full)
      else if full.suffix = chars ".toml" then do readToml (← fileText full)
      else loadPlace r k
        (if m.files.isDirectory full.parts then full.parts ++ [chars "__init__.py"] else full.parts)) := by
  intro full
  have starts : perform m (importerAt k) = (.ok (m.importers.getD k default), m) := rfl
  unfold requirePath
  rw [perform_bind starts]
  dsimp only
  split
  · rfl
  · split
    · rfl
    · rw [perform_bind perform_get]
      split <;> rfl

theorem ImporterCall.run_place {call : ImporterCall} (asksFor : call.place? m k = some p) :
    perform m (call.run r k) = perform m (loadPlace r k p) := by
  cases call with
  | plain name =>
    have sibling : m.sibling? k name = some p := asksFor
    exact (perform_importPlain r m k name).trans (by rw [sibling])
  | byName name =>
    simp only [place?] at asksFor
    split at asksFor
    case isTrue => cases asksFor
    case isFalse absolute =>
      have plain : ¬name.toList.contains '.' := fun dotted => by
        rw [Machine.sibling?_of_dotted dotted] at asksFor
        cases asksFor
      refine (perform_importByName r m k absolute).trans ?_
      rw [if_neg plain, perform_importPlain, asksFor]
  | require path =>
    simp only [place?] at asksFor
    split at asksFor
    case isTrue => cases asksFor
    case isFalse loaded =>
      simp only [Bool.or_eq_true, decide_eq_true_eq, not_or] at loaded
      refine (perform_requirePath r m k path).trans ?_
      rw [if_neg loaded.1, if_neg loaded.2, Option.some.inj asksFor]
  | load path => exact (perform_bind perform_get).trans (by rw [Option.some.inj asksFor])

theorem ImporterCall.run_other {call : ImporterCall} (asks : r.OnlyAsks) (asksFor : call.place? m k = none) :
    Adds m (perform m (call.run r k)).2 := by
  have full {f : Value × Value → Value} (name : String) : OnlyAdds (do return f (← importFull r name)) :=
    (onlyAdds_importFull asks name).bind fun _ => (leaves_pure _).onlyAdds
  have plain (name : String) (none : m.sibling? k name = none) : Adds m (perform m (importPlain r k name)).2 := by
    rw [perform_importPlain, none]
    exact full name m
  cases call with
  | plain name => exact plain name asksFor
  | byName name =>
    simp only [place?] at asksFor
    split at asksFor
    case isTrue relative =>
      refine .of_same ?_
      change (perform m (importByName r k name)).2.importers = m.importers
      unfold importByName
      rw [if_pos relative]
      rfl
    case isFalse absolute =>
      rw [run, perform_importByName r m k absolute]
      split
      · exact full name m
      · exact plain name asksFor
  | require path =>
    simp only [place?] at asksFor
    split at asksFor
    case isFalse => cases asksFor
    case isTrue document =>
      rw [run, perform_requirePath]
      split
      · exact ((leaves_fileText _).bind fun _ => leaves_readJson _ _).onlyAdds m
      · split
        · exact ((leaves_fileText _).bind fun _ => leaves_readToml _).onlyAdds m
        · simp_all
  | load path => cases asksFor

/-- A call, with the machine in front of it and what it comes to. -/
structure Called where
  before : Machine
  call : ImporterCall
  result : Except Signal Value
  after : Machine

/-- The file whose module a call asked for. -/
def Called.place? (c : Called) (k : Nat) : Option Place := c.call.place? c.before k

/-- Calls of an importer one after another.  Whatever happens in between, importers keep what they have registered. -/
inductive InTurn (r : Interpreter) (k : Nat) : Machine → List Called → Prop
  | done {m : Machine} : InTurn r k m []
  | next {m : Machine} {c : Called} {rest : List Called} (between : Adds m c.before)
      (runs : perform c.before (c.call.run r k) = (c.result, c.after)) (later : InTurn r k c.after rest) :
      InTurn r k m (c :: rest)

theorem Loads.adds {result : Except Signal Value} (loads : Loads k p m result m') : Adds m m' := by
  cases loads with
  | again => exact .refl m
  | refused _ same => exact .of_same same
  | first _ adds => exact adds

theorem Loads.registered {result : Except Signal Value} (loads : Loads k p m result m')
    (found : m.registered? k p = some v) : result = .ok v ∧ m' = m := by
  cases loads with
  | again found' => exact ⟨by rw [Option.some.inj (found'.symm.trans found)], rfl⟩
  | refused fresh | first fresh => cases fresh.symm.trans found

/-- Behind a load that leaves the table longer the place is registered; a module that is given is the registered one. -/
theorem Loads.registers {result : Except Signal Value} (loads : Loads k p m result m') :
    (∃ v, m'.registered? k p = some v ∧ ∀ w, result = .ok w → w = v) ∨
      (∃ e, result = .error e) ∧ m'.importers = m.importers := by
  cases loads with
  | again found => exact .inl ⟨_, found, fun w same => (Except.ok.inj same).symm⟩
  | refused _ same => exact .inr ⟨⟨_, rfl⟩, same⟩
  | @first _ v _ fresh _ table gives =>
    obtain ⟨others, table⟩ := table
    have unknown : (m.registered k).find? (fun e => e.1 = p) = none := Option.map_eq_none_iff.mp fresh
    refine .inl ⟨v, ?_, gives⟩
    rw [Machine.registered?, table, List.find?_append, unknown, Option.none_or, List.find?_cons_of_pos (by simp)]
    rfl

theorem ImporterCall.step (asks : r.OnlyAsks) (known : k < m.importers.length) (call : ImporterCall) :
    Adds m (perform m (call.run r k)).2 ∧
      ∀ p, call.place? m k = some p → Loads k p m (perform m (call.run r k)).1 (perform m (call.run r k)).2 := by
  have loads (p : Place) (asksFor : call.place? m k = some p) :
      Loads k p m (perform m (call.run r k)).1 (perform m (call.run r k)).2 := by
    rw [call.run_place asksFor]
    exact loads_loadPlace asks known p
  refine ⟨?_, loads⟩
  rcases asksFor : call.place? m k with _ | p
  · exact call.run_other asks asksFor
  · exact (loads p asksFor).adds

/-- Once registered, a module is what every later call for its place gives, and such a call does nothing else. -/
theorem InTurn.registered {calls : List Called} (asks : r.OnlyAsks) (inTurn : InTurn r k m calls)
    (known : k < m.importers.length) (found : m.registered? k p = some v) :
    ∀ c ∈ calls, c.place? k = some p → c.result = .ok v ∧ c.after = c.before := by
  induction inTurn with
  | done => exact fun _ inside => nomatch inside
  | @next m c rest between runs _ ih =>
    have known' := Nat.lt_of_lt_of_le known between.count
    have found' := between.registered? known found
    have step := ImporterCall.step asks known' c.call
    rw [runs] at step
    intro b inside asksFor
    rcases List.mem_cons.mp inside with rfl | inside
    · exact (step.2 p asksFor).registered found'
    · exact ih (Nat.lt_of_lt_of_le known' step.1.count) (step.1.registered? known' found') b inside asksFor

/-! ## A body that fails -/

def failingPlace : Place := [chars "bad.py"]

/-- A program next to which there is a module whose body fails. -/
def besideFailing : Machine :=
  { heap := startingHeap, importers := [{ base := [] }]
    files := ⟨[], [(failingPlace, .file (chars "x = 1\nraise ValueError('boom')\n").utf8)]⟩ }

def askedTwice (r : Interpreter) (k : Nat) (m : Machine) (call : ImporterCall) : List Called :=
  let once := perform m (call.run r k)
  let again := perform once.2 (call.run r k)
  [⟨m, call, once.1, once.2⟩, ⟨once.2, call, again.1, again.2⟩]

theorem askedTwice_inTurn (r : Interpreter) (k : Nat) (m : Machine) (call : ImporterCall) :
    InTurn r k m (askedTwice r k m call) :=
  .next (.refl _) rfl (.next (.refl _) rfl .done)

/-- The failing module is loaded twice. -/
def loadedTwice (r : Interpreter) : List Called := askedTwice r 0 besideFailing (.load (.posix (chars "bad.py")))

/-- Runs every body as that of the failing module. -/
def failingInterpreter : Interpreter :=
  { interpreter { prepare := plainModule } 0 with
    exec := fun frame _ => do
      bindIn frame.scope "x" (ofInt 1)
      valueError "boom" }

theorem failingInterpreter_onlyAsks : failingInterpreter.OnlyAsks where
  exec := fun frame _ => ((leaves_scopeAt frame.scope).bind fun _ => fun _ => rfl).onlyAdds.bind fun _ =>
    (leaves_raise _ _).onlyAdds
  prepare := fun _ => ((leaves_readSource _).bind fun _ => leaves_pure _).onlyAdds

/-! ## All calls -/

/-- Modules stay registered over all calls of an importer.  Every call keeps what was registered, and a call for the
module of a file is a load of it.  When a call for a file is over, its module is registered, unless the call failed and
left all importers as they were; every later call for the file gives this module, whether its body ended or failed, and
runs nothing. -/
theorem registered_modules_stay {calls : List Called} (asks : r.OnlyAsks) (known : k < m.importers.length)
    (inTurn : InTurn r k m calls) :
    (∀ c ∈ calls, Adds c.before c.after ∧ ∀ p, c.place? k = some p → Loads k p c.before c.result c.after) ∧
      calls.Pairwise fun a b => ∀ p, a.place? k = some p → b.place? k = some p →
        (∃ v, (∀ w, a.result = .ok w → w = v) ∧ b.result = .ok v ∧ b.after = b.before) ∨
          (∃ e, a.result = .error e) ∧ a.after.importers = a.before.importers := by
  induction inTurn with
  | done => exact ⟨fun _ inside => (nomatch inside), .nil⟩
  | @next m c rest between runs later ih =>
    have known' := Nat.lt_of_lt_of_le known between.count
    have step := ImporterCall.step asks known' c.call
    rw [runs] at step
    have known'' := Nat.lt_of_lt_of_le known' step.1.count
    obtain ⟨each, pairs⟩ := ih known''
    refine ⟨List.forall_mem_cons.mpr ⟨step, each⟩, List.pairwise_cons.mpr ⟨fun b inside p asksFor asksFor' => ?_, pairs⟩⟩
    rcases (step.2 p asksFor).registers with ⟨v, found, gives⟩ | nothing
    · exact .inl ⟨v, gives, later.registered asks known'' found b inside asksFor'⟩
    · exact .inr nothing

theorem registered_modules_stay_failing :
    failingInterpreter.OnlyAsks ∧ 0 < besideFailing.importers.length ∧
      InTurn failingInterpreter 0 besideFailing (loadedTwice failingInterpreter) ∧
      ∀ c ∈ loadedTwice failingInterpreter, Adds c.before c.after ∧
        ∀ p, c.place? 0 = some p → Loads 0 p c.before c.result c.after :=
  ⟨failingInterpreter_onlyAsks, Nat.zero_lt_one, askedTwice_inTurn _ _ _ _,
    (registered_modules_stay failingInterpreter_onlyAsks Nat.zero_lt_one (askedTwice_inTurn _ _ _ _)).1⟩

/-- A module whose body fails is given by the second load of its file. -/
theorem failed_load_gives_module :
    (loadedTwice plainInterpreter).map (fun c => c.result.toOption.isSome) = [false, true] := by
  decide +kernel

end Sandbox

end MacroExpand
