import MacroExpand.Build.Loading
import MacroExpand.Text.PatternText
import MacroExpand.Proofs.Alone
import MacroExpand.Proofs.Storing

/-!
# What a build leaves behind

Building an item writes to its target and to the place of its source map, and nowhere else.  Over a whole
build, the target of an item holds the expansion of what its source held at the start, as long as no item
before it writes to its source and none behind it writes to its target.
-/

set_option autoImplicit false

namespace MacroExpand

/-! ## The place of a source map -/

namespace PathText

theorem resolveParts_append (done a b : List Text) :
    resolveParts done (a ++ b) = resolveParts (resolveParts done a).reverse b := by
  induction a generalizing done with
  | nil => rw [List.nil_append, resolveParts, List.reverse_reverse]
  | cons part rest ih =>
    rw [List.cons_append, resolveParts, resolveParts]
    split
    · exact ih _
    · exact ih _

end PathText

theorem Build.place_mapPathOf_ne (files : Files) (target : PathText) :
    files.place (mapPathOf target) ≠ files.place target := by
  obtain ⟨front, found⟩ : ∃ front, ∀ parts : List Text,
      files.place { target with parts } = PathText.resolveParts [] (front ++ parts) := by
    by_cases rooted : target.root.isEmpty = true
    · exact ⟨files.home, fun parts => by simp [Files.place, PathText.resolve, PathText.join, rooted]⟩
    · exact ⟨[], fun parts => by simp [Files.place, PathText.resolve, PathText.join, rooted]⟩
  have moved := found (target.parts.dropLast ++ [target.name ++ chars ".map"])
  have kept := found target.parts
  change files.place target = _ at kept
  intro same
  rw [mapPathOf, moved, kept, ← List.append_assoc, PathText.resolveParts_append] at same
  have named : target.name ++ chars ".map" ≠ ['.', '.'] := by
    intro dots
    have sizes := congrArg List.length dots
    simp [chars] at sizes
  rcases List.eq_nil_or_concat target.parts with none | ⟨above, last, shape⟩
  · rw [none, List.dropLast_nil, List.append_nil, PathText.resolveParts, if_neg named,
      PathText.resolveParts] at same
    have sizes := congrArg List.length same
    simp at sizes
  · have name : target.name = last := by rw [PathText.name, shape]; simp
    rw [shape, List.concat_eq_append, List.dropLast_concat, ← List.append_assoc,
      PathText.resolveParts_append [] (front ++ above) [last], PathText.resolveParts, if_neg named,
      PathText.resolveParts, PathText.resolveParts] at same
    split at same
    · have sizes := congrArg List.length same
      simp only [PathText.resolveParts, List.length_reverse, List.length_cons, List.length_drop] at sizes
      omega
    · have ends := congrArg List.getLast? same
      simp [PathText.resolveParts, name, chars] at ends

namespace BuildM

variable {α β : Type}

/-- How a step of a build ends, and the state that it leaves. -/
def outcome (step : BuildM α) (s : PassState World) : Except LoadError α × PassState World := step.run.run s

theorem outcome_bind_ok {step : BuildM α} {s t : PassState World} {a : α}
    (ended : step.outcome s = (.ok a, t)) (next : α → BuildM β) :
    (step >>= next).outcome s = (next a).outcome t := by
  change StateT.run (ExceptT.bindCont next (step.outcome s).1) (step.outcome s).2 = _
  rw [ended]
  rfl

theorem outcome_bind_error {step : BuildM α} {s t : PassState World} {e : LoadError}
    (ended : step.outcome s = (.error e, t)) (next : α → BuildM β) :
    (step >>= next).outcome s = (.error e, t) := by
  change StateT.run (ExceptT.bindCont next (step.outcome s).1) (step.outcome s).2 = _
  rw [ended]
  rfl

variable {f : α → BuildM β} {a : α} {rest : List α}

theorem outcome_mapM_nil (f : α → BuildM β) (s : PassState World) : (([] : List α).mapM f).outcome s = (.ok [], s) := by
  rw [List.mapM_nil]
  rfl

theorem outcome_mapM_error {s t : PassState World} {e : LoadError} (first : (f a).outcome s = (.error e, t)) :
    ((a :: rest).mapM f).outcome s = (.error e, t) := by
  rw [List.mapM_cons]
  exact outcome_bind_error first _

theorem outcome_mapM_ok {s t : PassState World} {b : β} (first : (f a).outcome s = (.ok b, t)) :
    ((a :: rest).mapM f).outcome s =
      (((rest.mapM f).outcome t).1.map (b :: ·), ((rest.mapM f).outcome t).2) := by
  rw [List.mapM_cons, outcome_bind_ok first]
  rcases ended : (rest.mapM f).outcome t with ⟨e | bs, u⟩
  · exact outcome_bind_error ended _
  · exact outcome_bind_ok ended _

end BuildM

def PassState.withFiles (s : PassState World) (files : Files) : PassState World :=
  { s with world := { s.world with files } }

namespace Build

open BuildM

variable {c : Context} {directory path : PathText} {item : BuildItem} {s t : PassState World} {e : LoadError}

/-! ## The steps of a build -/

theorem outcome_files (s : PassState World) : files.outcome s = (.ok s.world.files, s) := rfl

theorem outcome_change_ok {result : Except FileError Files} {made : Files} (ok : result = .ok made)
    (s : PassState World) : (change result).outcome s = (.ok (), s.withFiles made) := by
  rw [ok]
  rfl

theorem outcome_change_error {result : Except FileError Files} {e : FileError} (failed : result = .error e)
    (s : PassState World) : (change result).outcome s = (.error (.file e), s) := by
  rw [failed]
  rfl

theorem outcome_writeText_ok {text : Text} {written : Files}
    (ok : s.world.files.write path text.utf8 = .ok written) :
    (writeText path text).outcome s = (.ok (), s.withFiles written) := by
  rw [writeText, outcome_bind_ok (outcome_files s)]
  exact outcome_change_ok ok s

theorem outcome_writeText_error {text : Text} {e : FileError}
    (failed : s.world.files.write path text.utf8 = .error e) :
    (writeText path text).outcome s = (.error (.file e), s) := by
  rw [writeText, outcome_bind_ok (outcome_files s)]
  exact outcome_change_error failed s

theorem outcome_pass {α : Type} (path : Text) (step : PassM World α) (s : PassState World) :
    BuildM.outcome (ExceptT.adapt (LoadError.pass path) step) s =
      ((step.outcome s).1.mapError (.pass path), (step.outcome s).2) := by
  change ((Except.mapError (LoadError.pass path) <$> step.run).run s) = _
  rfl

theorem readText_cases (path : PathText) (s : PassState World) :
    (∃ bytes text, s.world.files.read path = .ok bytes ∧ utf8Decode bytes = .ok text ∧
      (readText path).outcome s = (.ok text, s)) ∨ ∃ e, (readText path).outcome s = (.error e, s) := by
  rw [readText, outcome_bind_ok (outcome_files s)]
  cases read : s.world.files.read path with
  | error e => exact .inr ⟨.file e, rfl⟩
  | ok bytes =>
    have ready : (orFail (.ok bytes) : BuildM (List UInt8)).outcome s = (.ok bytes, s) := rfl
    rw [outcome_bind_ok ready]
    cases decoded : utf8Decode bytes with
    | error e => exact .inr ⟨.encoding e, rfl⟩
    | ok text => exact .inl ⟨bytes, text, rfl, decoded, rfl⟩

def loadedFrom (c : Context) (path : PathText) (expanded : Expanded) : Loaded where
  contents := expanded.emitted.code
  kind := path.suffix.dropWhile (· == '.')
  sourceMap := if c.settings.emitSourceMaps then some expanded.emitted.sourceMap else none
  names := expanded.names

/-- How loading a file ends. -/
inductive Loads (c : Context) (path : PathText) (s : PassState World) :
    Except LoadError Loaded → PassState World → Prop where
  | unread {e : LoadError} : Loads c path s (.error e) s
  | fails {text : Text} {e : PassError} {t : PassState World}
      (pass : (expandMacros c.settings c.execute text path.text).outcome s = (.error e, t)) :
      Loads c path s (.error (.pass path.text e)) t
  | loads {bytes : List UInt8} {text : Text} {expanded : Expanded} {t : PassState World}
      (read : s.world.files.read path = .ok bytes) (decoded : utf8Decode bytes = .ok text)
      (pass : (expandMacros c.settings c.execute text path.text).outcome s = (.ok expanded, t)) :
      Loads c path s (.ok (loadedFrom c path expanded)) t

theorem load_loads (c : Context) (path : PathText) (s : PassState World) :
    Loads c path s ((load c path).outcome s).1 ((load c path).outcome s).2 := by
  rw [load]
  rcases readText_cases path s with ⟨bytes, text, read, decoded, ended⟩ | ⟨e, ended⟩
  · rw [outcome_bind_ok ended]
    have pass := outcome_pass path.text (expandMacros c.settings c.execute text path.text) s
    rcases done : (expandMacros c.settings c.execute text path.text).outcome s with ⟨e | expanded, t⟩
    · rw [done] at pass
      rw [outcome_bind_error pass]
      exact .fails done
    · rw [done] at pass
      rw [outcome_bind_ok pass]
      exact .loads read decoded done
  · rw [outcome_bind_error ended]
    exact .unread

/-! ## Building an item -/

def targetOf (directory : PathText) (item : BuildItem) : PathText := directory.join item.relative

def mapText (target : PathText) (map : SourceMap) : Text :=
  ({ map with file := target.name } : SourceMap).toJson.render

theorem outcome_writeMap_ok {target : PathText} {map : SourceMap} {written : Files}
    (ok : s.world.files.write (mapPathOf target) (mapText target map).utf8 = .ok written) :
    ((some map).mapM (writeMap target)).outcome s = (.ok (some (mapPathOf target)), s.withFiles written) := by
  have stored : (writeMap target map).outcome s = (.ok (mapPathOf target), s.withFiles written) := by
    rw [writeMap]
    exact outcome_bind_ok (outcome_writeText_ok ok) _
  rw [Option.mapM_some, map_eq_pure_bind, outcome_bind_ok stored]
  rfl

theorem outcome_writeMap_error {target : PathText} {map : SourceMap} {e : FileError}
    (failed : s.world.files.write (mapPathOf target) (mapText target map).utf8 = .error e) :
    ((some map).mapM (writeMap target)).outcome s = (.error (.file e), s) := by
  have refused : (writeMap target map).outcome s = (.error (.file e), s) := by
    rw [writeMap]
    exact outcome_bind_error (outcome_writeText_error failed) _
  rw [Option.mapM_some, map_eq_pure_bind, outcome_bind_error refused]

inductive Builds (c : Context) (directory : PathText) (item : BuildItem) (s : PassState World) :
    Except LoadError Output → PassState World → Prop where
  /-- The directory of the target cannot be made. -/
  | homeless {e : LoadError} : Builds c directory item s (.error e) s
  | unloaded {made : Files} {e : LoadError} {t : PassState World}
      (room : s.world.files.makeDirectories (targetOf directory item).parent = .ok made)
      (loads : Loads c item.source (s.withFiles made) (.error e) t) :
      Builds c directory item s (.error e) t
  | unwritten {made : Files} {loaded : Loaded} {e : LoadError} {t : PassState World}
      (room : s.world.files.makeDirectories (targetOf directory item).parent = .ok made)
      (loads : Loads c item.source (s.withFiles made) (.ok loaded) t) : Builds c directory item s (.error e) t
  /-- The target is written, its source map is not. -/
  | unmapped {made written : Files} {loaded : Loaded} {map : SourceMap} {e : FileError} {t : PassState World}
      (room : s.world.files.makeDirectories (targetOf directory item).parent = .ok made)
      (loads : Loads c item.source (s.withFiles made) (.ok loaded) t)
      (write : t.world.files.write (targetOf directory item) loaded.contents.utf8 = .ok written)
      (mapped : loaded.sourceMap = some map)
      (refused : written.write (mapPathOf (targetOf directory item))
        (mapText (targetOf directory item) map).utf8 = .error e) :
      Builds c directory item s (.error (.file e)) (t.withFiles written)
  | bare {made written : Files} {loaded : Loaded} {output : Output} {t u : PassState World}
      (room : s.world.files.makeDirectories (targetOf directory item).parent = .ok made)
      (loads : Loads c item.source (s.withFiles made) (.ok loaded) t)
      (write : t.world.files.write (targetOf directory item) loaded.contents.utf8 = .ok written)
      (left : u.world.files = written) (runs : u.runs = t.runs) :
      Builds c directory item s (.ok output) u
  | mapped {made written both : Files} {loaded : Loaded} {map : SourceMap} {output : Output}
      {t u : PassState World}
      (room : s.world.files.makeDirectories (targetOf directory item).parent = .ok made)
      (loads : Loads c item.source (s.withFiles made) (.ok loaded) t)
      (write : t.world.files.write (targetOf directory item) loaded.contents.utf8 = .ok written)
      (mapped : loaded.sourceMap = some map)
      (beside : written.write (mapPathOf (targetOf directory item))
        (mapText (targetOf directory item) map).utf8 = .ok both)
      (left : u.world.files = both) (runs : u.runs = t.runs) :
      Builds c directory item s (.ok output) u

theorem buildItem_builds (c : Context) (directory : PathText) (item : BuildItem) (s : PassState World) :
    Builds c directory item s ((buildItem c directory item).outcome s).1
      ((buildItem c directory item).outcome s).2 := by
  have target : directory.join item.relative = targetOf directory item := rfl
  rw [buildItem, outcome_bind_ok (outcome_files s), target]
  cases room : s.world.files.makeDirectories (targetOf directory item).parent with
  | error e =>
    rw [outcome_bind_error (outcome_change_error rfl s)]
    exact .homeless
  | ok made =>
    rw [outcome_bind_ok (outcome_change_ok rfl s)]
    have loads := load_loads c item.source (s.withFiles made)
    rcases ended : (load c item.source).outcome (s.withFiles made) with ⟨e | loaded, t⟩
    · rw [ended] at loads
      rw [outcome_bind_error ended]
      exact .unloaded room loads
    · rw [ended] at loads
      rw [outcome_bind_ok ended]
      cases write : t.world.files.write (targetOf directory item) loaded.contents.utf8 with
      | error e =>
        rw [outcome_bind_error (outcome_writeText_error write)]
        exact .unwritten room loads
      | ok written =>
        rw [outcome_bind_ok (outcome_writeText_ok write)]
        cases mapped : loaded.sourceMap with
        | none => exact .bare room loads write rfl rfl
        | some map =>
          cases beside : written.write (mapPathOf (targetOf directory item))
              (mapText (targetOf directory item) map).utf8 with
          | error e =>
            rw [outcome_bind_error (outcome_writeMap_error beside)]
            exact .unmapped room loads write mapped beside
          | ok both =>
            rw [outcome_bind_ok (outcome_writeMap_ok beside)]
            exact .mapped room loads write mapped beside rfl rfl

/-! ## What building an item changes -/

/-- Macros that leave all files alone. -/
def KeepsFiles (execute : Executor World) (calls : List Invocation) : Prop :=
  ∀ call ∈ calls, ∀ world, (execute call world).world.files = world.files

def spotOf (files : Files) (directory : PathText) (item : BuildItem) : Place :=
  files.place (targetOf directory item)

def spotsOf (c : Context) (files : Files) (directory : PathText) (item : BuildItem) : List Place :=
  spotOf files directory item ::
    if c.settings.emitSourceMaps then [files.place (mapPathOf (targetOf directory item))] else []

def Expansion (c : Context) (directory : PathText) (item : BuildItem) (s : PassState World)
    (source contents : Text) : Prop :=
  ∃ made expanded t, s.world.files.makeDirectories (targetOf directory item).parent = .ok made ∧
    (expandMacros c.settings c.execute source item.source.text).outcome (s.withFiles made) =
      (.ok expanded, t) ∧ expanded.emitted.code = contents

def MapRefused (c : Context) (directory : PathText) (item : BuildItem) (files : Files) (e : LoadError) : Prop :=
  c.settings.emitSourceMaps = true ∧
    ∃ bytes fault, files.write (mapPathOf (targetOf directory item)) bytes = .error fault ∧ e = .file fault

structure Effect (c : Context) (directory : PathText) (item : BuildItem) (s : PassState World)
    (ended : Except LoadError Output) (files : Files) : Prop where
  home : files.home = s.world.files.home
  frame : ∀ q ∉ spotsOf c s.world.files directory item, files.bytes? q = s.world.files.bytes? q
  holds : ∀ output, ended = .ok output → ∃ bytes source contents,
    s.world.files.read item.source = .ok bytes ∧ utf8Decode bytes = .ok source ∧
      Expansion c directory item s source contents ∧
      files.bytes? (spotOf s.world.files directory item) = some contents.utf8
  failed : ∀ e, ended = .error e → (∀ q, files.bytes? q = s.world.files.bytes? q) ∨
    (∀ q ≠ spotOf s.world.files directory item, files.bytes? q = s.world.files.bytes? q) ∧
      MapRefused c directory item files e

theorem place_congr {files files' : Files} (same : files'.home = files.home) (path : PathText) :
    files'.place path = files.place path := by
  rw [Files.place, Files.place, same]

theorem spotsOf_congr {files files' : Files} (same : files'.home = files.home) (c : Context)
    (directory : PathText) (item : BuildItem) :
    spotsOf c files' directory item = spotsOf c files directory item := by
  rw [spotsOf, spotsOf, spotOf, spotOf, place_congr same, place_congr same]

theorem KeepsFiles.of_append {execute : Executor World} {a b : List Invocation}
    (quiet : KeepsFiles execute (a ++ b)) : KeepsFiles execute a ∧ KeepsFiles execute b :=
  ⟨fun call member => quiet call (List.mem_append_left b member),
    fun call member => quiet call (List.mem_append_right a member)⟩

theorem Loads.runs {result : Except LoadError Loaded} (loads : Loads c path s result t) :
    ∃ new, t.runs = s.runs ++ new ∧ (KeepsFiles c.execute new → t.world.files = s.world.files) := by
  cases loads with
  | unread => exact ⟨[], (List.append_nil _).symm, fun _ => rfl⟩
  | @fails text e t pass =>
    have grown := expandMacros_runs World.files c.settings c.execute text path.text s
    rw [pass] at grown
    exact grown
  | @loads bytes text expanded t read decoded pass =>
    have grown := expandMacros_runs World.files c.settings c.execute text path.text s
    rw [pass] at grown
    exact grown

/-- What loading an item reads is what its source held before directories were made for it. -/
theorem Loads.expansion {made : Files} {loaded : Loaded}
    (room : s.world.files.makeDirectories (targetOf directory item).parent = .ok made)
    (loads : Loads c item.source (s.withFiles made) (.ok loaded) t) :
    ∃ bytes source, s.world.files.read item.source = .ok bytes ∧ utf8Decode bytes = .ok source ∧
      Expansion c directory item s source loaded.contents := by
  obtain ⟨home, kept⟩ := Files.makeDirectories_keeps room
  cases loads with
  | @loads bytes text expanded _ read decoded pass =>
    exact ⟨bytes, text, Files.read_congr home (kept _) read, decoded, made, expanded, t, room, pass, rfl⟩

theorem Loads.emits {loaded : Loaded} {map : SourceMap} (loads : Loads c path s (.ok loaded) t)
    (mapped : loaded.sourceMap = some map) : c.settings.emitSourceMaps = true := by
  cases loads with
  | loads =>
    cases emits : c.settings.emitSourceMaps with
    | true => rfl
    | false => rw [loadedFrom, emits] at mapped; cases mapped

/-- Building an item writes to the target and to the place of the source map, unless macros write files. -/
theorem Builds.effect {ended : Except LoadError Output} (builds : Builds c directory item s ended t) :
    ∃ new, t.runs = s.runs ++ new ∧
      (KeepsFiles c.execute new → Effect c directory item s ended t.world.files) := by
  cases builds with
  | homeless =>
    refine ⟨[], (List.append_nil _).symm, fun _ => ⟨rfl, fun _ _ => rfl, nofun, ?_⟩⟩
    exact fun _ _ => .inl fun _ => rfl
  | unloaded room loads | unwritten room loads =>
    obtain ⟨home, kept⟩ := Files.makeDirectories_keeps room
    obtain ⟨new, runs, same⟩ := loads.runs
    refine ⟨new, runs, fun quiet => ?_⟩
    rw [same quiet]
    exact ⟨home, fun q _ => kept q, nofun, fun _ _ => .inl kept⟩
  | @unmapped made written loaded map e t room loads write mapped refused =>
    obtain ⟨home, kept⟩ := Files.makeDirectories_keeps room
    obtain ⟨new, runs, same⟩ := loads.runs
    refine ⟨new, runs, fun quiet => ?_⟩
    rw [same quiet] at write
    have stays : ∀ q ≠ spotOf s.world.files directory item, written.bytes? q = s.world.files.bytes? q := by
      intro q other
      rw [spotOf, ← place_congr home] at other
      exact (Files.bytes?_write_of_ne write other).trans (kept q)
    refine ⟨(Files.write_home write).trans home, fun q free => ?_, nofun, ?_⟩
    · exact stays q (List.ne_of_not_mem_cons free)
    · rintro _ ⟨⟩
      exact .inr ⟨stays, loads.emits mapped, _, e, refused, rfl⟩
  | @bare made written loaded output t u room loads write left sameRuns =>
    obtain ⟨home, kept⟩ := Files.makeDirectories_keeps room
    obtain ⟨new, runs, same⟩ := loads.runs
    refine ⟨new, sameRuns.trans runs, fun quiet => ?_⟩
    rw [same quiet] at write
    rw [left]
    refine ⟨(Files.write_home write).trans home, fun q free => ?_, fun _ _ => ?_, fun _ bad => (by cases bad)⟩
    · have other := List.ne_of_not_mem_cons free
      rw [spotOf, ← place_congr home] at other
      exact (Files.bytes?_write_of_ne write other).trans (kept q)
    · obtain ⟨bytes, source, read, decoded, expansion⟩ := Loads.expansion room loads
      refine ⟨bytes, source, loaded.contents, read, decoded, expansion, ?_⟩
      rw [spotOf, ← place_congr home]
      exact Files.bytes?_write write
  | @mapped made written both loaded map output t u room loads write mapped beside left sameRuns =>
    obtain ⟨home, kept⟩ := Files.makeDirectories_keeps room
    obtain ⟨new, runs, same⟩ := loads.runs
    refine ⟨new, sameRuns.trans runs, fun quiet => ?_⟩
    rw [same quiet] at write
    have home' := (Files.write_home write).trans home
    rw [left]
    refine ⟨(Files.write_home beside).trans home', fun q free => ?_, fun _ _ => ?_, fun _ bad => (by cases bad)⟩
    · rw [spotsOf, loads.emits mapped, if_pos rfl, List.mem_cons, not_or, List.mem_singleton] at free
      obtain ⟨other, apart⟩ := free
      rw [spotOf, ← place_congr home] at other
      rw [← place_congr home'] at apart
      exact (Files.bytes?_write_of_ne beside apart).trans
        ((Files.bytes?_write_of_ne write other).trans (kept q))
    · obtain ⟨bytes, source, read, decoded, expansion⟩ := Loads.expansion room loads
      refine ⟨bytes, source, loaded.contents, read, decoded, expansion, ?_⟩
      have apart : written.place (mapPathOf (targetOf directory item)) ≠
          written.place (targetOf directory item) := place_mapPathOf_ne written _
      rw [spotOf, ← place_congr home', Files.bytes?_write_of_ne beside apart.symm,
        place_congr (Files.write_home write)]
      exact Files.bytes?_write write

/-! ## Building item after item -/

/-- What a build has done to the files, when it began at `s`, the items in `built` are done and the first
in `left`, if any, failed. -/
structure Faithful (c : Context) (directory : PathText) (s : PassState World)
    (ended : Except LoadError (List Output)) (files : Files) (built left : List BuildItem) : Prop where
  complete : left = [] ↔ ∃ outputs, ended = .ok outputs
  home : files.home = s.world.files.home
  /-- Only the places of the items that the build came to are written. -/
  frame : ∀ q, (∀ item ∈ built ++ left.take 1, q ∉ spotsOf c s.world.files directory item) →
    files.bytes? q = s.world.files.bytes? q
  /-- The target of an item holds the expansion of what its source held at the start. -/
  holds : ∀ before item after, built = before ++ item :: after →
    (∀ earlier ∈ before, s.world.files.place item.source ∉ spotsOf c s.world.files directory earlier) →
    (∀ later ∈ after ++ left.take 1,
      spotOf s.world.files directory item ∉ spotsOf c s.world.files directory later) →
    ∃ outputs t bytes source contents, (before.mapM (buildItem c directory)).outcome s = (.ok outputs, t) ∧
      s.world.files.read item.source = .ok bytes ∧ utf8Decode bytes = .ok source ∧
      Expansion c directory item t source contents ∧
      files.bytes? (spotOf s.world.files directory item) = some contents.utf8
  /-- The targets of the other items are as they were. -/
  untouched : ∀ item ∈ left,
    (∀ earlier ∈ built, spotOf s.world.files directory item ∉ spotsOf c s.world.files directory earlier) →
    files.bytes? (spotOf s.world.files directory item) =
        s.world.files.bytes? (spotOf s.world.files directory item) ∨
      ∃ first e, left.head? = some first ∧ ended = .error e ∧ MapRefused c directory first files e ∧
        spotOf s.world.files directory item = spotOf s.world.files directory first

variable {ended : Except LoadError (List Output)} {files : Files} {built left : List BuildItem}

theorem Faithful.nil (c : Context) (directory : PathText) (s : PassState World) :
    Faithful c directory s (.ok []) s.world.files [] [] where
  complete := ⟨fun _ => ⟨[], rfl⟩, fun _ => rfl⟩
  home := rfl
  frame := fun _ _ => rfl
  holds := fun before item after none => by simp at none
  untouched := fun item member => by cases member

theorem Faithful.of_failure {rest : List BuildItem} {files : Files}
    (effect : Effect c directory item s (.error e) files) :
    Faithful c directory s (.error e) files [] (item :: rest) where
  complete := ⟨nofun, nofun⟩
  home := effect.home
  frame := fun q free => effect.frame q (free item (by simp))
  holds := fun before item after none => by simp at none
  untouched := by
    intro later _ _
    by_cases here : spotOf s.world.files directory later = spotOf s.world.files directory item
    · rcases effect.failed e rfl with kept | ⟨-, refused⟩
      · exact .inl (kept _)
      · exact .inr ⟨item, e, rfl, rfl, refused, here⟩
    · rcases effect.failed e rfl with kept | ⟨kept, -⟩
      · exact .inl (kept _)
      · exact .inl (kept _ here)

theorem Faithful.cons {output : Output} (step : (buildItem c directory item).outcome s = (.ok output, t))
    (effect : Effect c directory item s (.ok output) t.world.files)
    (later : Faithful c directory t ended files built left) :
    Faithful c directory s (ended.map (output :: ·)) files (item :: built) left where
  complete := by
    rw [later.complete]
    cases ended with
    | error e => exact ⟨nofun, nofun⟩
    | ok outputs => exact ⟨fun _ => ⟨_, rfl⟩, fun _ => ⟨_, rfl⟩⟩
  home := later.home.trans effect.home
  frame := by
    intro q free
    rw [later.frame q, effect.frame q (free item (by simp))]
    intro other member
    rw [spotsOf_congr effect.home]
    exact free other (List.mem_cons_of_mem item member)
  holds := by
    intro before first after shape sourceFree targetFree
    cases before with
    | nil =>
      obtain ⟨rfl, rfl⟩ : item = first ∧ built = after := by simpa using shape
      obtain ⟨bytes, source, contents, read, decoded, expansion, written⟩ := effect.holds output rfl
      refine ⟨[], s, bytes, source, contents, outcome_mapM_nil _ s, read, decoded, expansion, ?_⟩
      rw [later.frame, written]
      intro other member
      rw [spotsOf_congr effect.home]
      exact targetFree other member
    | cons head before =>
      obtain ⟨rfl, split⟩ : item = head ∧ built = before ++ first :: after := by simpa using shape
      have same : t.world.files.place first.source = s.world.files.place first.source :=
        place_congr effect.home _
      have spot : spotOf t.world.files directory first = spotOf s.world.files directory first :=
        place_congr effect.home _
      obtain ⟨outputs, u, bytes, source, contents, run, read, decoded, expansion, written⟩ :=
        later.holds before first after split
          (by
            intro earlier member
            rw [same, spotsOf_congr effect.home]
            exact sourceFree earlier (List.mem_cons_of_mem item member))
          (by
            intro other member
            rw [spot, spotsOf_congr effect.home]
            exact targetFree other member)
      refine ⟨output :: outputs, u, bytes, source, contents, ?_, ?_, decoded, expansion, ?_⟩
      · rw [outcome_mapM_ok step, run]
        rfl
      · exact Files.read_congr effect.home (effect.frame _ (sourceFree item List.mem_cons_self)) read
      · rw [← spot]
        exact written
  untouched := by
    intro other member free
    have spot (item : BuildItem) : spotOf t.world.files directory item = spotOf s.world.files directory item :=
      place_congr effect.home _
    have kept := effect.frame _ (free item List.mem_cons_self)
    rcases later.untouched other member (by
        intro earlier inside
        rw [spot, spotsOf_congr effect.home]
        exact free earlier (List.mem_cons_of_mem item inside)) with same | ⟨first, e, isFirst, failed, refused, here⟩
    · rw [spot] at same
      exact .inl (same.trans kept)
    · rw [spot, spot] at here
      refine .inr ⟨first, e, isFirst, ?_, refused, here⟩
      rw [failed]
      rfl

theorem mapM_faithful (c : Context) (directory : PathText) (items : List BuildItem) (s : PassState World) :
    ∃ new, ((items.mapM (buildItem c directory)).outcome s).2.runs = s.runs ++ new ∧
      (KeepsFiles c.execute new → ∃ built left, items = built ++ left ∧
        Faithful c directory s ((items.mapM (buildItem c directory)).outcome s).1
          ((items.mapM (buildItem c directory)).outcome s).2.world.files built left) := by
  induction items generalizing s with
  | nil =>
    rw [outcome_mapM_nil]
    exact ⟨[], (List.append_nil _).symm, fun _ => ⟨[], [], rfl, .nil c directory s⟩⟩
  | cons item rest ih =>
    have builds := buildItem_builds c directory item s
    rcases step : (buildItem c directory item).outcome s with ⟨e | output, t⟩
    · rw [step] at builds
      obtain ⟨new, runs, effect⟩ := builds.effect
      rw [outcome_mapM_error step]
      exact ⟨new, runs, fun quiet => ⟨[], item :: rest, rfl, .of_failure (effect quiet)⟩⟩
    · rw [step] at builds
      obtain ⟨new, runs, effect⟩ := builds.effect
      obtain ⟨more, runs', later⟩ := ih t
      rw [outcome_mapM_ok step]
      refine ⟨new ++ more, ?_, fun quiet => ?_⟩
      · rw [runs', runs, List.append_assoc]
      · obtain ⟨quietHere, quietLater⟩ := quiet.of_append
        obtain ⟨built, left, rfl, faithful⟩ := later quietLater
        exact ⟨item :: built, left, rfl, .cons step (effect quietHere) faithful⟩

/-- The state from which a build goes through its items: sources that are passed over are logged. -/
def begun (c : Context) (sources : List PathText) (s : PassState World) : PassState World :=
  { s with log := s.log ++ passedOver c.pattern c.settings.filePattern s.world.files sources }

theorem outcome_run (c : Context) (sources : List PathText) (directory : PathText) (s : PassState World) :
    (run c sources directory).outcome s =
      ((collect c.pattern s.world.files sources).mapM (buildItem c directory)).outcome (begun c sources s) := by
  have listed : (items c sources).outcome s =
      (.ok (collect c.pattern s.world.files sources), begun c sources s) := rfl
  rw [run, outcome_bind_ok listed]

/-- A build whose macros write no files goes through its items in order up to the first that fails.  The
target of an item that is built holds the expansion of what its source held at the start, if no item before
it writes to its source and none behind it writes to its target.  The targets of the others are as they
were, if no item that is built writes there, unless it was the source map of the failed item that could
not be written. -/
theorem run_faithful (c : Context) (sources : List PathText) (directory : PathText) (s : PassState World)
    (quiet : KeepsFiles c.execute (((run c sources directory).outcome s).2.runs.drop s.runs.length)) :
    ∃ built left, collect c.pattern s.world.files sources = built ++ left ∧
      Faithful c directory (begun c sources s) ((run c sources directory).outcome s).1
        ((run c sources directory).outcome s).2.world.files built left := by
  rw [outcome_run] at quiet ⊢
  obtain ⟨new, runs, faithful⟩ := mapM_faithful c directory
    (collect c.pattern s.world.files sources) (begun c sources s)
  have added : new = (((collect c.pattern s.world.files sources).mapM (buildItem c directory)).outcome
      (begun c sources s)).2.runs.drop s.runs.length := by
    rw [runs]
    exact (List.drop_left' rfl).symm
  rw [← added] at quiet
  exact faithful quiet

/-! ## Builds whose items meet -/

/-- A build where every macro gives `1`. -/
def sample (emitSourceMaps : Bool) : Context where
  settings := { emitSourceMaps }
  pattern := (Pattern.ofText (chars "\\.pyw?$")).toOption.getD default
  execute := fun _ world => ⟨.ok ['1'], [], world⟩

/-- A state with some files and directories below the root. -/
def holding (nodes : List (List String × FileNode)) : PassState World :=
  { world := { files := ⟨[], nodes.map fun n => (n.1.map chars, n.2)⟩ } }

/-- A file with a text. -/
def textFile (text : String) : FileNode := .file (chars text).utf8

/-- The code that a file without macros is expanded to. -/
def codeOf (c : Context) (s : PassState World) (path : PathText) : Option Text := do
  let source ← (utf8Decode (← (s.world.files.read path).toOption)).toOption
  let expanded ← ((expandMacros c.settings c.execute source path.text).outcome s).1.toOption
  return expanded.emitted.code

theorem run_faithful_oneMacro :
    let s := holding [(["a", "m.py"], textFile "def m():\n    'use macro'\n    return 1\nx = m()\n"),
      (["a"], .directory)]
    let done := (run (sample true) [.posix (chars "a")] (.posix (chars "out"))).outcome s
    KeepsFiles (sample true).execute (done.2.runs.drop s.runs.length) ∧
      ∃ built left, collect (sample true).pattern s.world.files [.posix (chars "a")] = built ++ left ∧
        Faithful (sample true) (.posix (chars "out")) (begun (sample true) [.posix (chars "a")] s) done.1
          done.2.world.files built left :=
  ⟨fun _ _ _ => rfl, run_faithful _ _ _ _ fun _ _ _ => rfl⟩

/-- Of two items with one target the first is lost; an output directory below a source is read after it is
written; and a target stays when its source map cannot be written. -/
theorem run_where_items_meet :
    (let c := sample false
      let s := holding [(["a"], .directory), (["a", "m.py"], textFile "x = 1\n"),
        (["b"], .directory), (["b", "m.py"], textFile "x = 2\n")]
      let sources := [PathText.posix (chars "a"), .posix (chars "b")]
      let done := (run c sources (.posix (chars "out"))).outcome s
      done.1.toOption.isSome = true ∧
        ⟨.posix (chars "a/m.py"), .posix (chars "m.py")⟩ ∈ collect c.pattern s.world.files sources ∧
        codeOf c s (.posix (chars "a/m.py")) = some (chars "x = 1\n") ∧
        done.2.world.files.bytes? [chars "out", chars "m.py"] = some (chars "x = 2\n").utf8) ∧
    (let c := sample false
      let s := holding [(["a"], .directory), (["a", "m.py"], textFile "x = 1\n"),
        (["d"], .directory), (["d", "p"], .directory), (["d", "p", "m.py"], textFile "x = 2\n")]
      let sources := [PathText.posix (chars "a"), .posix (chars "d")]
      let done := (run c sources (.posix (chars "d/p"))).outcome s
      done.1.toOption.isSome = true ∧
        ⟨.posix (chars "d/p/m.py"), .posix (chars "p/m.py")⟩ ∈ collect c.pattern s.world.files sources ∧
        codeOf c s (.posix (chars "d/p/m.py")) = some (chars "x = 2\n") ∧
        done.2.world.files.bytes? [chars "d", chars "p", chars "p", chars "m.py"] =
          some (chars "x = 1\n").utf8) ∧
    (let c := sample true
      let s := holding [(["a"], .directory), (["a", "m.py"], textFile "x = 1\n"),
        (["out"], .directory), (["out", "m.py.map"], .directory)]
      let done := (run c [.posix (chars "a")] (.posix (chars "out"))).outcome s
      done.1.toOption.isSome = false ∧ s.world.files.bytes? [chars "out", chars "m.py"] = none ∧
        collect c.pattern s.world.files [.posix (chars "a")] =
          [⟨.posix (chars "a/m.py"), .posix (chars "m.py")⟩] ∧
        done.2.world.files.bytes? [chars "out", chars "m.py"] = some (chars "x = 1\n").utf8) := by
  decide +kernel

end Build

end MacroExpand
