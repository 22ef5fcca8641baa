import MacroExpand.Proofs.Draining
import MacroExpand.Proofs.LineKeeping
import MacroExpand.Proofs.MacroUses
import MacroExpand.Proofs.Rescanning
import MacroExpand.Proofs.Roles

/-!
# No edit of a pass changes the number of lines

Emitting refuses an edit if its text has not as many line feeds as what it replaces.  The edits of a pass fit the source
(`Scan.Found.fits_expand`, `Scan.Found.fits_strip`), and an edit that fits is refused only where it takes a carriage
return away that alone ends a line: then the lines agree and the line feeds do not.
-/

set_option autoImplicit false

namespace MacroExpand

open Text (Flat)

/-! ## Edits that are kept -/

theorem Except.bind_ne_error {ε α β : Type} {x : Except ε α} {f : α → Except ε β} {e : ε} (first : x ≠ .error e)
    (rest : ∀ a, x = .ok a → f a ≠ .error e) : (x >>= f) ≠ .error e := by
  cases x with
  | error e' => exact fun same => first (by cases same; rfl)
  | ok a => exact rest a rfl

theorem Except.exists_of_map {ε α β : Type} {x : Except ε α} {f : α → β} {b : β} (ok : (x.map f).toOption = some b) :
    ∃ a, x = .ok a ∧ f a = b := by
  cases x with
  | error e => cases ok
  | ok a => exact ⟨a, rfl, Option.some.inj ok⟩

namespace PlacedEdit

/-- An edit lies in the one kept before, overlaps with it, or is kept. -/
theorem sweep_cons (last : Option PlacedEdit) (e : PlacedEdit) (rest : List PlacedEdit) :
    sweep last (e :: rest) = sweep last rest ∨
      sweep last (e :: rest) = .error (.overlapping e.edit.start.line) ∨
      sweep last (e :: rest) = (sweep (some e) rest).map (e :: ·) := by
  have keep : (do return e :: (← sweep (some e) rest)) = (sweep (some e) rest).map (e :: ·) := by
    cases sweep (some e) rest <;> rfl
  cases last with
  | none => exact .inr (.inr keep)
  | some k =>
    rw [sweep]
    split
    · exact .inl rfl
    · split
      · exact .inr (.inl rfl)
      · exact .inr (.inr keep)

theorem sweep_subset {last : Option PlacedEdit} {edits kept : List PlacedEdit}
    (swept : sweep last edits = .ok kept) : kept ⊆ edits := by
  induction edits generalizing last kept with
  | nil =>
    cases swept
    exact List.Subset.refl _
  | cons e rest ih =>
    rcases sweep_cons last e rest with inside | overlaps | keeps
    · exact List.subset_cons_of_subset e (ih (inside.symm.trans swept))
    · cases overlaps.symm.trans swept
    · rw [keeps] at swept
      cases later : sweep (some e) rest with
      | error _ =>
        rw [later] at swept
        cases swept
      | ok others =>
        rw [later] at swept
        cases swept
        exact List.cons_subset_cons e (ih later)

theorem sweep_ne_changesLines {last : Option PlacedEdit} {edits : List PlacedEdit} {line : Int} :
    sweep last edits ≠ .error (.changesLines line) := by
  induction edits generalizing last with
  | nil => exact fun failed => by cases failed
  | cons e rest ih =>
    rcases sweep_cons last e rest with inside | overlaps | keeps
    · rw [inside]
      exact ih
    · rw [overlaps]
      exact fun failed => by cases failed
    · rw [keeps]
      intro failed
      cases later : sweep (some e) rest with
      | error _ =>
        rw [later] at failed
        cases failed
        exact ih later
      | ok _ =>
        rw [later] at failed
        cases failed

end PlacedEdit

namespace Edit

variable {starts : List Nat} {edits : List Edit} {line : Int}

theorem place_ne_changesLines {e : Edit} : e.place starts ≠ .error (.changesLines line) := by
  unfold place
  split <;> exact fun failed => by cases failed

theorem outermost_ne_changesLines : outermost starts edits ≠ .error (.changesLines line) := by
  refine Except.bind_ne_error ?_ fun _ _ => PlacedEdit.sweep_ne_changesLines
  induction edits with
  | nil => exact fun failed => by cases failed
  | cons e rest ih =>
    rw [List.mapM_cons]
    exact Except.bind_ne_error place_ne_changesLines fun _ _ => Except.bind_ne_error ih fun _ _ failed => by
      cases failed

theorem mem_outermost {kept : List PlacedEdit} (isKept : outermost starts edits = .ok kept) {k : PlacedEdit}
    (member : k ∈ kept) : k.edit ∈ edits ∧ k.edit.place starts = .ok k := by
  obtain ⟨all, placed, swept⟩ := Sandbox.bind_ok isKept
  have inAll := List.mem_mergeSort.mp (PlacedEdit.sweep_subset swept member)
  have related := Sandbox.mapM_ok placed
  clear isKept placed swept member
  induction related with
  | nil => cases inAll
  | @cons e p edits _ isPlace _ ih =>
    rcases List.mem_cons.mp inAll with rfl | later
    · have isEdit : k.edit = e := by
        unfold place at isPlace
        split at isPlace
        · cases isPlace
          rfl
        · cases isPlace
      exact ⟨isEdit ▸ .head _, isEdit ▸ isPlace⟩
    · exact ⟨.tail _ (ih later).1, (ih later).2⟩

end Edit

/-- Splicing fails because a line is missing or where putting the edits in order fails. -/
theorem Text.splice_ne {source : Text} {edits : List Edit} {span : Option (Anchor × Anchor)} {e : EditError}
    (noLine : e ≠ .noSuchLine) (inOrder : Edit.outermost source.lineStarts edits ≠ .error e) :
    source.splice edits span ≠ .error e := by
  unfold Text.splice
  cases span with
  | none =>
    exact Except.bind_ne_error (by simp) fun _ _ => Except.bind_ne_error (by simp) fun _ _ =>
      Except.bind_ne_error inOrder fun _ _ failed => by cases failed
  | some s =>
    refine Except.bind_ne_error ?_ fun _ _ => Except.bind_ne_error ?_ fun _ _ =>
      Except.bind_ne_error inOrder fun _ _ failed => by cases failed
    all_goals
      intro failed
      dsimp only at failed
      split at failed
      · cases failed
      · cases failed
        exact noLine rfl

theorem Text.splice_ne_changesLines {source : Text} {edits : List Edit} {span : Option (Anchor × Anchor)} {line : Int} :
    source.splice edits span ≠ .error (.changesLines line) :=
  splice_ne nofun Edit.outermost_ne_changesLines

/-! ## Emitting -/

namespace Emit

variable {source : Text} {line : Int}

theorem checkLines_ok {kept : List PlacedEdit} (keeps : ∀ k ∈ kept,
    (source.slice k.start k.stop).countFeeds = k.edit.replacement.countFeeds) : checkLines source kept = .ok () := by
  induction kept with
  | nil => rfl
  | cons k rest ih =>
    rw [checkLines, if_pos (keeps k (.head _))]
    exact ih fun k' member => keeps k' (.tail _ member)

theorem annotate_ne_edit {code tag : Text} {edits : List Edit} {e : EditError} (noLine : e ≠ .noSuchLine) :
    annotate code source edits tag ≠ .error (.edit e) := by
  have written : ∀ (notes : List (Nat × List String)) (lines : List Text),
      notes.foldlM (writeNote tag) lines ≠ .error e := by
    intro notes
    induction notes with
    | nil => exact fun lines failed => by cases failed
    | cons note rest ih =>
      intro lines
      rw [List.foldlM_cons]
      refine Except.bind_ne_error ?_ fun lines _ => ih lines
      unfold writeNote
      split
      · exact fun failed => by cases failed
      · split
        · split
          · exact fun failed => noLine (by cases failed; rfl)
          · exact fun failed => by cases failed
        · exact fun failed => by cases failed
  unfold annotate
  dsimp only
  cases source.commentLines with
  | error e => exact fun failed => by cases failed
  | ok safe =>
    refine Except.bind_ne_error (fun failed => by cases failed) fun safe _ failed => ?_
    cases noted : (notes safe edits).foldlM (writeNote tag) code.lines with
    | ok lines =>
      rw [noted] at failed
      cases failed
    | error _ =>
      rw [noted] at failed
      cases failed
      exact written _ _ noted

end Emit

theorem EmitError.orEdit_ne {α : Type} {x : Except EditError α} {e : EditError} (ne : x ≠ .error e) :
    EmitError.orEdit x ≠ .error (.edit e) := by
  cases x with
  | ok a => exact fun failed => by cases failed
  | error e' => exact fun failed => ne (by cases failed; rfl)

theorem EmitError.ok_of_orEdit {α : Type} {x : Except EditError α} {a : α} (ok : EmitError.orEdit x = .ok a) :
    x = .ok a := by
  cases x with
  | ok a' =>
    cases ok
    rfl
  | error e => cases ok

/-- Edits that fit and take no carriage return away that alone ends a line change no number of lines. -/
theorem emit_ne_changesLines {tree : Tree} {source : Text} {edits : List Edit} {options : EmitOptions} {line : Int}
    (fits : ∀ e ∈ edits, e.Fits source) (noLone : ∀ e ∈ edits, ¬ e.TakesLoneReturn source) :
    emit tree source edits options ≠ .error (.edit (.changesLines line)) := by
  unfold emit
  dsimp only
  split
  · refine Except.bind_ne_error (EmitError.orEdit_ne Edit.outermost_ne_changesLines) fun kept isKept => ?_
    have checked : Emit.checkLines source kept = .ok () := by
      refine Emit.checkLines_ok fun k member => ?_
      obtain ⟨isEdit, isPlaced⟩ := Edit.mem_outermost (EmitError.ok_of_orEdit isKept) member
      exact (fits _ isEdit).feeds isPlaced (noLone _ isEdit)
    refine Except.bind_ne_error (by rw [checked]; exact fun failed => by cases failed) fun _ _ => ?_
    refine Except.bind_ne_error (EmitError.orEdit_ne Text.splice_ne_changesLines) fun code _ => ?_
    split
    · exact Except.bind_ne_error (Emit.annotate_ne_edit nofun) fun _ _ failed => by cases failed
    · exact fun failed => by cases failed
  · split
    · exact fun failed => by cases failed
    · exact fun failed => by cases failed

/-! ## Passes -/

/-- An edit that a pass over a file makes: for a recorded call, or for the statement of a macro. -/
inductive Scan.Edits (scan : Scan) (source : Text) : Edit → Prop where
  | call {site : CallSite} (recorded : site ∈ scan.sites) (result : Tree) (expression : Text) :
      Edits scan source (Pass.editOf ⟨site, result⟩ expression)
  | statement {d : Definition} (isDefinition : d ∈ scan.definitions) (withPass : Bool) :
      Edits scan source ((Removal.Context.of scan.definitions source.lines).edit withPass d.statement)

namespace Pass

variable {σ : Type} {c : Context σ} {holds : Text → Prop} {line : Int}

/-- Something holds of every stored result. -/
def AllStored (holds : Text → Prop) (cache : Cache CacheKey Text) : Prop :=
  ∀ key text, cache.get? key = some text → holds text

namespace AllStored

variable {cache : Cache CacheKey Text} {key : CacheKey}

theorem claim (stored : AllStored holds cache) : AllStored holds (cache.claim key).1 :=
  fun key' text found => stored key' text (by simpa using found)

theorem release (stored : AllStored holds cache) : AllStored holds (cache.release key) :=
  fun key' text found => stored key' text (by simpa using found)

theorem put (stored : AllStored holds cache) (key : CacheKey) {text : Text} (new : holds text) :
    AllStored holds (cache.put key text).1 := by
  intro key' text' found
  rw [Cache.get?_put] at found
  cases earlier : cache.get? key' with
  | some stored' =>
    rw [earlier] at found
    cases found
    exact stored key' text' earlier
  | none =>
    rw [earlier, Option.none_or] at found
    split at found
    · cases found
      exact new
    · cases found

end AllStored

theorem ofRunError_ne_emit {d : Definition} {e : RunError} {e' : EmitError} : ofRunError d e ≠ .emit e' := by
  unfold ofRunError
  split <;> exact fun failed => by cases failed

mutual

/-- What holds of stored results and of those of runs holds of every result that a call gets, and no call fails
because an edit is refused. -/
theorem Expands.results {chain : List String} {d : Definition} {site : CallSite} {arguments : Text} {t u : Trail}
    {result : Except PassError Text} (runs : ∀ call world text, (c.execute call world).outcome = .ok text → holds text)
    (expands : Expands c chain d site arguments t result u) (stored : AllStored holds t.cache) :
    AllStored holds u.cache ∧ (∀ text, result = .ok text → holds text) ∧
      result ≠ .error (.emit (.edit (.changesLines line))) :=
  match expands with
  | .cycle _ => ⟨stored, fun _ same => (by cases same), fun same => by cases same⟩
  | .hit _ found => ⟨stored, fun _ same => (by cases same; exact stored _ _ found), fun same => by cases same⟩
  | .waits _ _ _ => ⟨stored, fun _ same => (by cases same), fun same => by cases same⟩
  | .fails _ _ _ body => by
      obtain ⟨after, failed⟩ := body.results runs stored.claim
      refine ⟨after.release, fun _ same => (by cases same), fun same => failed ?_⟩
      cases same
      rfl
  | .breaks _ _ _ body _ => by
      obtain ⟨after, -⟩ := body.results runs stored.claim
      exact ⟨after.release, fun _ same => (by cases same),
        fun same => ofRunError_ne_emit (Except.error.inj same)⟩
  | .runs _ _ _ body ran => by
      obtain ⟨after, -⟩ := body.results runs stored.claim
      have settled := after.put (c.key d) (runs _ _ _ ran)
      refine ⟨settled.release, fun _ same => ?_, fun same => by cases same⟩
      cases same
      exact settled _ _ (Cache.put_stored _ _ _)

theorem ExpandsAll.results {chain : List String} {r : Rewriting} {sites : List CallSite} {t u : Trail}
    {result : Except PassError Rewriting}
    (runs : ∀ call world text, (c.execute call world).outcome = .ok text → holds text)
    (expands : ExpandsAll c chain r sites t result u) (stored : AllStored holds t.cache) :
    AllStored holds u.cache ∧ result ≠ .error (.emit (.edit (.changesLines line))) :=
  match expands with
  | .done => ⟨stored, fun same => by cases same⟩
  | .skips _ next => next.results runs stored
  | .stops _ unwritten => by
      refine ⟨stored, fun same => ?_⟩
      cases same
      exact Text.splice_ne_changesLines unwritten
  | .fails _ _ call => by
      obtain ⟨after, -, failed⟩ := call.results runs stored
      refine ⟨after, fun same => failed ?_⟩
      cases same
      rfl
  | .refuses _ _ call _ => ⟨(call.results runs stored).1, fun same => by cases same⟩
  | .replaces _ _ call _ next => next.results runs (call.results runs stored).1

end

/-- The edits that replace calls by results on one line fit. -/
theorem Writes.fits {typeComments : Bool} {version : Nat} {source path directive : Text} {tree : Tree} {scan : Scan}
    {value : String → Text} {r : Rewriting} (writes : Writes value scan.sites r)
    (found : Scan.Found ⟨path, directive, source.lines⟩ tree scan)
    (parsed : parseModule source typeComments version = .ok tree) (flat : ∀ name, Flat (value name)) :
    ∀ e ∈ r.edits, e.Fits source := by
  intro e member
  rw [writes.edits] at member
  obtain ⟨expansion, isExpansion, rfl⟩ := List.mem_map.mp member
  obtain ⟨isSite, -⟩ := expansion_of_site writes.results isExpansion
  obtain ⟨call, inside, ofCall⟩ := found.site_of (.inl isSite)
  exact ofCall.fits parsed inside (flat _)

theorem parsed_of_scanned {settings : Settings} {source path : Text} {tree : Tree} {scan : Scan}
    (isScanned : scanned settings source path = .ok (tree, scan)) :
    parseModule source (settings.typeCommentsFor path) = .ok tree := by
  unfold scanned at isScanned
  split at isScanned
  · cases isScanned
  · rename_i parsed
    split at isScanned
    · cases isScanned
    · cases isScanned
      exact parsed

theorem AllStored.value {cache : Cache CacheKey Text} (stored : AllStored holds cache) (empty : holds [])
    (c : Context σ) (name : String) : holds (c.value cache name) := by
  unfold Context.value
  cases found : (c.scan.definition? name).bind fun d => cache.get? (c.key d) with
  | none => exact empty
  | some text =>
    obtain ⟨d, -, isStored⟩ := Option.bind_eq_some_iff.mp found
    exact stored _ _ isStored

/-- A file whose calls are replaced by results on one line is not refused for its lines, if no edit takes a carriage
return away that alone ends a line. -/
theorem finish_ne_changesLines {settings : Settings} {execute : Executor σ} {source path directive : Text}
    {typeComments : Bool} {version : Nat} {tree : Tree} {scan : Scan} {value : String → Text} {r : Rewriting}
    (found : Scan.Found ⟨path, directive, source.lines⟩ tree scan)
    (parsed : parseModule source typeComments version = .ok tree)
    (noLone : ∀ e, scan.Edits source e → ¬ e.TakesLoneReturn source)
    (writes : Writes value scan.sites r) (flat : ∀ name, Flat (value name)) :
    finish ⟨settings, execute, source, source.lines, scan⟩ path tree r ≠
      .error (.emit (.edit (.changesLines line))) := by
  have unlabelled : ∀ e ∈ r.expansions, e.result.Unlabelled := fun e member =>
    unlabelled_of_parseExpression (expansion_of_site writes.results member).2
  have fits : ∀ e ∈ r.edits ++ ((Removal.Context.of scan.definitions source.lines).strip
      (Rewriting.apply r.expansions tree)).edits, e.Fits source := fun e member =>
    (List.mem_append.mp member).elim (writes.fits found parsed flat e) (found.fits_strip parsed unlabelled e)
  have ofPass : ∀ e ∈ r.edits ++ ((Removal.Context.of scan.definitions source.lines).strip
      (Rewriting.apply r.expansions tree)).edits, scan.Edits source e := by
    intro e member
    rcases List.mem_append.mp member with ofCall | ofStatement
    · rw [writes.edits] at ofCall
      obtain ⟨expansion, isExpansion, rfl⟩ := List.mem_map.mp ofCall
      exact .call (expansion_of_site writes.results isExpansion).1 _ _
    · obtain ⟨d, isDefinition, -, withPass, rfl⟩ := found.mem_strip parsed unlabelled ofStatement
      exact .statement isDefinition withPass
  unfold finish
  dsimp only
  intro failed
  split at failed
  · cases failed
  · rename_i emitted
    cases failed
    exact emit_ne_changesLines fits (fun e member => noLone e (ofPass e member)) emitted

/-- A pass with results on one line fails because an edit changes the number of lines only where an edit takes a
carriage return away that alone ends a line. -/
theorem expandMacros_ne_changesLines {settings : Settings} {execute : Executor σ} {source path : Text}
    {s : PassState σ}
    (noLone : ∀ tree scan, scanned settings source path = .ok (tree, scan) →
      ∀ e, scan.Edits source e → ¬ e.TakesLoneReturn source)
    (runs : ∀ call world text, (execute call world).outcome = .ok text → Flat text)
    (stored : AllStored Flat s.cache) :
    ((expandMacros settings execute source path).outcome s).1 ≠ .error (.emit (.edit (.changesLines line))) := by
  have pass := expandMacros_expands settings execute source path s
  intro failed
  cases isScanned : scanned settings source path with
  | error e =>
    rw [isScanned] at pass
    have before := pass.1.symm.trans failed
    cases before
    unfold scanned at isScanned
    split at isScanned
    · cases isScanned
    · split at isScanned <;> cases isScanned
  | ok file =>
    obtain ⟨tree, scan⟩ := file
    rw [isScanned] at pass
    obtain ⟨-, plain, -⟩ | ⟨-, replaced, all, result⟩ := pass
    · obtain ⟨sourceMap, emitted⟩ := emit_unchanged tree source (emitOptions settings path)
      rw [failed, unchanged, emitted] at plain
      cases plain
    · obtain ⟨after, unfailed⟩ : AllStored Flat _ ∧ replaced ≠ .error (.emit (.edit (.changesLines line))) :=
        all.results runs stored
      have found := found_of_scanned isScanned
      have parsed := parsed_of_scanned isScanned
      cases replaced with
      | error e =>
        cases result.symm.trans failed
        exact unfailed rfl
      | ok r =>
        obtain ⟨_, _, done⟩ := all.adds
        have writes := (done r rfl).1.writes_all fun site member => found.known (.inl member)
        exact finish_ne_changesLines found parsed (noLone tree scan isScanned) writes (fun name => after.value Text.flat_nil _ name)
          (result.symm.trans failed)

end Pass

/-! ## Results of macros -/

def Object.OneLine (object : Object) : Prop := object.Names fun c => c ≠ '\n' ∧ c ≠ '\r'

/-- A text that a value is written as, the names of whose objects are on one line. -/
def Serialized (text : Text) : Prop := ∃ limit graph root log, (∀ object ∈ graph, object.OneLine) ∧
  serialize Registry.standard limit graph root = .ok (text, log)

/-- Reading the body of a message does not change the names that it is written with. -/
theorem Object.Drains.names {object : Object} {result : Object × Option Drained} (drains : object.Drains result)
    {p : Char → Prop} (names : object.Names p) : result.1.Names p := by
  cases drains with
  | request => exact names
  | response => exact names
  | other => exact names

theorem Graph.Read.names {graph graph' : Graph} {order : List Nat} (read : graph.Read order graph') {p : Char → Prop}
    (names : ∀ object ∈ graph, object.Names p) : ∀ object ∈ graph', object.Names p := by
  intro object' member
  obtain ⟨i, inside, rfl⟩ := Array.mem_iff_getElem.mp member
  rcases read.cases (Array.getElem?_eq_getElem inside) with ⟨-, before⟩ | ⟨object, _, -, before, drained⟩
  · exact names _ (Array.mem_of_getElem? before)
  · exact drained.names (names object (Array.mem_of_getElem? before))

theorem Serialized.flat {text : Text} (serialized : Serialized text) : Flat text := by
  obtain ⟨limit, graph, root, log, names, written⟩ := serialized
  obtain ⟨⟨graph', log'⟩, drained, written⟩ := Sandbox.bind_ok written
  obtain ⟨expression, unevaluated, written⟩ := Sandbox.bind_ok written
  have outcome := drains graph ((awaited? graph root).getD root)
  rw [drained] at outcome
  obtain ⟨order, -, -, read, -⟩ := outcome
  have flat : Flat expression := (of_uneval Text.plain_of_isPrintable (read.names names) unevaluated).flat
  cases awaits : awaited? graph' root with
  | none =>
    rw [awaits] at written
    cases written
    exact flat
  | some v =>
    rw [awaits] at written
    cases written
    have call : Flat (chars "__import__('asyncio').sleep(0, result=") := by simp [Flat, chars]
    exact Text.flat_append.mpr ⟨Text.flat_append.mpr ⟨call, flat⟩, by simp [Flat]⟩

/-! ## Recorded edits -/

/-- Whatever ends the lines of a file, each edit for a call or for the statement of a macro writes as many ends of
lines as it takes away; and a pass is refused for the number of lines only where an edit takes a carriage return away
that alone ends a line. -/
theorem recorded_edits_keep_breaks {settings : Settings} {source path : Text} {tree : Tree} {scan : Scan}
    (isScanned : Pass.scanned settings source path = .ok (tree, scan)) :
    (∀ site, site ∈ scan.sites ∨ (∃ d ∈ scan.definitions, site ∈ d.calls) → ∀ text, Serialized text →
      ∀ (r r' : Rewriting) edit, r.expand site text = .ok (r', edit) → edit.KeepsBreaks source) ∧
    (∀ expansions : List Expansion, (∀ e ∈ expansions, ∃ text, parseExpression text = .ok e.result) →
      ∀ e ∈ ((Removal.Context.of scan.definitions source.lines).strip (Rewriting.apply expansions tree)).edits,
        e.KeepsBreaks source) ∧
    ∀ (σ : Type) (execute : Executor σ) (s : PassState σ) (line : Int),
      (∀ call world text, (execute call world).outcome = .ok text → Serialized text) →
      Pass.AllStored Serialized s.cache →
      ((expandMacros settings execute source path).outcome s).1 = .error (.emit (.edit (.changesLines line))) →
      ∃ e, scan.Edits source e ∧ e.TakesLoneReturn source := by
  have found := Pass.found_of_scanned isScanned
  have parsed := Pass.parsed_of_scanned isScanned
  refine ⟨fun site recorded text serialized r r' edit replaced => ?_, fun expansions read e member => ?_,
    fun σ execute s line runs stored refused => ?_⟩
  · exact (found.fits_expand parsed rfl recorded serialized.flat replaced).keepsBreaks
  · refine (found.fits_strip parsed (fun e member => ?_) e member).keepsBreaks
    obtain ⟨text, isText⟩ := read e member
    exact unlabelled_of_parseExpression isText
  · by_contra noLone
    refine Pass.expandMacros_ne_changesLines (fun tree' scan' isScanned' e ofPass takes => noLone ⟨e, ?_, takes⟩)
      (fun call world text ran => (runs call world text ran).flat)
      (fun key text found => (stored key text found).flat) refused
    cases isScanned.symm.trans isScanned'
    exact ofPass

/-- A file with lines that end in all ways: a call over two lines, and a macro whose first line ends with a carriage
return alone. -/
def mixedEnds : Text := chars "def m():\r    'use macro'\r\n    return 1\nx = m(\n)\ry = m()\r"

theorem mixedEnds_kept : ∃ tree scan, Pass.scanned {} mixedEnds (chars "m.py") = .ok (tree, scan) ∧
    scan.sites.length = 2 ∧ Serialized ['1'] ∧
    ∀ site ∈ scan.sites, ∀ (r r' : Rewriting) edit, r.expand site ['1'] = .ok (r', edit) → edit.KeepsBreaks mixedEnds := by
  obtain ⟨⟨tree, scan⟩, isScanned, two⟩ : ∃ file, Pass.scanned {} mixedEnds (chars "m.py") = .ok file ∧
      file.2.sites.length = 2 := by
    rw [show mixedEnds = _ from chars_ofList _]
    decide +kernel
  have serialized : Serialized ['1'] := ⟨nestingLimit, #[], .scalar (.int 1), [], by simp, by decide +kernel⟩
  refine ⟨tree, scan, isScanned, two, serialized, fun site member => ?_⟩
  exact (recorded_edits_keep_breaks isScanned).1 site (.inl member) ['1'] serialized

instance (e : Edit) (source : Text) : Decidable (e.KeepsBreaks source) :=
  inferInstanceAs (Decidable (∃ placed, e.place source.lineStarts = .ok placed ∧
    (source.slice placed.start placed.stop).countBreaks = e.replacement.countBreaks))

/-- The line of the edit that a pass was refused for, if it was. -/
def refusedLine? : Except PassError Expanded → Option Int
  | .error (.emit (.edit (.changesLines line))) => some line
  | _ => none

/-- A macro whose first line ends with a carriage return alone. -/
def loneReturn : Text := chars "def m():\r    'use macro'\n    return 1\n"

/-- The edit for the statement of the macro keeps the ends of lines, and the pass is refused. -/
theorem loneReturn_refused :
    (∃ file, Pass.scanned {} loneReturn (chars "m.py") = .ok file ∧
      ∀ e ∈ ((Removal.Context.of file.2.definitions loneReturn.lines).strip file.1).edits, e.KeepsBreaks loneReturn) ∧
    refusedLine? ((expandMacros {} (fun _ world => ⟨.ok ['1'], [], world⟩) loneReturn (chars "m.py")).outcome
      { world := () }).1 = some 1 := by
  rw [show loneReturn = _ from chars_ofList _]
  constructor <;> decide +kernel

/-! ## Results without instances -/

/-- The text that takes the place of a call has as many ends of lines as the call has lines behind its first. -/
theorem Rewriting.expand_breaks {r r' : Rewriting} {site : CallSite} {text : Text} {edit : Edit} (flat : Flat text)
    (replaced : r.expand site text = .ok (r', edit)) :
    edit.replacement.countBreaks = site.span.stop.line - site.span.start.line := by
  obtain ⟨result, -, rfl, -, -⟩ := Pass.expand_eq_ok replaced
  have wraps := Rewriting.wraps_replacement site result text
  exact (Text.countBreaks_of_noReturn (wraps.noReturn flat.2)).trans (wraps.feeds flat.1)

/-- What a value without instances is written as is on one line, whatever its texts and bytes hold.  So a text that
takes the place of a call has as many ends of lines as the call has lines behind its first, and in a file those are
the ends of lines in the call. -/
theorem plain_results_keep_breaks {registry : Registry} {limit : Nat} {graph : Graph} {root : Value} {text : Text}
    (none : NoInstances graph root) (written : uneval registry limit graph root = .ok text) :
    Flat text ∧
    (∀ (r r' : Rewriting) site edit, r.expand site text = .ok (r', edit) →
      edit.replacement.countBreaks = site.span.stop.line - site.span.start.line) ∧
    ∀ settings source path tree scan, Pass.scanned settings source path = .ok (tree, scan) →
      ∀ site, site ∈ scan.sites ∨ (∃ d ∈ scan.definitions, site ∈ d.calls) →
        ∀ (r r' : Rewriting) edit, r.expand site text = .ok (r', edit) →
          edit.start = site.span.start ∧ edit.stop = site.span.stop ∧ edit.KeepsBreaks source := by
  have flat : Flat text := ((printable_uneval none written).imp Text.plain_of_isPrintable).flat
  refine ⟨flat, fun r r' site edit replaced => Rewriting.expand_breaks flat replaced, ?_⟩
  intro settings source path tree scan isScanned site recorded r r' edit replaced
  have fits := (Pass.found_of_scanned isScanned).fits_expand (Pass.parsed_of_scanned isScanned) rfl recorded flat replaced
  refine ⟨?_, ?_, fits.keepsBreaks⟩
  · obtain ⟨_, -, rfl, -, -⟩ := Pass.expand_eq_ok replaced
    rfl
  · obtain ⟨_, -, rfl, -, -⟩ := Pass.expand_eq_ok replaced
    rfl

/-- Half of a surrogate pair, and a line feed. -/
def brokenCodes : Codes := ⟨[.surrogate 0, .char '\n'], rfl⟩

/-- A list that holds itself, and strings and bytes with all that ends a line. -/
def brokenTexts : Graph :=
  #[.list [.ref 0, .scalar (.str (chars "a\n\r\x85\u2028")), .scalar (.codes brokenCodes), .scalar (.bytes [10, 13])]]

/-- A call on three lines. -/
def longCall : CallSite := ⟨"m", 1, ⟨⟨1, 4⟩, ⟨3, 1⟩⟩, ⟨⟨1, 5⟩, ⟨3, 1⟩⟩, 1, 4, false⟩

theorem brokenTexts_written : ∃ text, NoInstances brokenTexts (.ref 0) ∧
    uneval Registry.standard nestingLimit brokenTexts (.ref 0) = .ok text ∧ Flat text ∧
    ∃ r edit, Rewriting.expand {} longCall text = .ok (r, edit) ∧ edit.replacement.countBreaks = 2 := by
  have none : NoInstances brokenTexts (.ref 0) := by
    intro i cls state _ isInst
    obtain ⟨below, isInst⟩ := Array.getElem?_eq_some_iff.mp isInst
    obtain rfl : i = 0 := by simpa [brokenTexts] using below
    cases isInst
  obtain ⟨text, written, changed, replaced, -⟩ : ∃ text,
      uneval Registry.standard nestingLimit brokenTexts (.ref 0) = .ok text ∧
        ∃ changed, Rewriting.expand {} longCall text = .ok changed ∧ changed.1.edits = [changed.2] := by
    decide +kernel
  obtain ⟨flat, breaks, -⟩ := plain_results_keep_breaks none written
  exact ⟨text, none, written, flat, changed.1, changed.2, replaced, breaks _ _ _ _ replaced⟩

/-! ## What the edits of a pass write -/

/-- A pass that succeeds puts one expression of each macro in place of its calls.  What holds of the results of runs, of
stored results and of no text holds of the expressions. -/
theorem Pass.exists_writes {σ : Type} {settings : Settings} {execute : Executor σ} {source path : Text} {s : PassState σ}
    {expanded : Expanded} {P : Text → Prop}
    (runs : ∀ call world text, (execute call world).outcome = .ok text → P text)
    (stored : AllStored P s.cache) (empty : P [])
    (succeeded : ((expandMacros settings execute source path).outcome s).1 = .ok expanded) :
    ∃ tree scan value r, scanned settings source path = .ok (tree, scan) ∧ Writes value scan.sites r ∧
      (∀ name, P (value name)) ∧ (scan.definitions ≠ [] →
        finish ⟨settings, execute, source, source.lines, scan⟩ path tree r = .ok expanded) := by
  have pass := expandMacros_expands settings execute source path s
  cases isScanned : scanned settings source path with
  | error e =>
    rw [isScanned] at pass
    cases pass.1.symm.trans succeeded
  | ok file =>
    obtain ⟨tree, scan⟩ := file
    rw [isScanned] at pass
    have found := found_of_scanned isScanned
    obtain ⟨noMacros, -⟩ | ⟨-, replaced, all, result⟩ := pass
    · exact ⟨tree, scan, fun _ => [], {}, rfl, found.no_sites noMacros ▸ ⟨.nil, rfl⟩, fun _ => empty,
        fun macros => absurd noMacros macros⟩
    · cases replaced with
      | error e => cases succeeded.symm.trans result
      | ok r =>
        obtain ⟨after, -⟩ : AllStored P _ ∧ _ ≠ Except.error (PassError.emit (.edit (.changesLines 0))) :=
          all.results runs stored
        obtain ⟨_, _, done⟩ := all.adds
        exact ⟨tree, scan, _, r, rfl, (done r rfl).1.writes_all fun site member => found.known (.inl member),
          fun name => after.value empty _ name, fun _ => result.symm.trans succeeded⟩

/-- All calls of a macro get one tree, which its expression reads as. -/
theorem Pass.Writes.exists_results {value : String → Text} {sites : List CallSite} {r : Rewriting}
    (writes : Writes value sites r) : ∃ result : String → Tree,
      (∀ site ∈ sites, parseExpression (value site.name) = .ok (result site.name)) ∧
      r.expansions = sites.map (fun site => ⟨site, result site.name⟩) ∧
      r.edits = sites.map fun site => editOf ⟨site, result site.name⟩ (value site.name) := by
  obtain ⟨related, edits⟩ := writes
  let result (name : String) : Tree := (parseExpression (value name)).toOption.getD Tree.absent
  have read : ∀ {name t}, parseExpression (value name) = .ok t → result name = t := fun parsed => by
    simp only [result, parsed]
    rfl
  have expansions : r.expansions = sites.map fun site => ⟨site, result site.name⟩ := by
    refine (List.forall₂_eq_eq_eq ▸ List.forall₂_map_left_iff.mpr (related.imp fun site e here => ?_)).symm
    obtain ⟨rfl, parsed⟩ := here
    rw [read parsed]
  refine ⟨result, fun site member => ?_, expansions, ?_⟩
  · obtain ⟨-, parsed⟩ := expansion_of_site related (e := ⟨site, result site.name⟩)
      (expansions ▸ List.mem_map.mpr ⟨site, member, rfl⟩)
    exact parsed
  · rw [edits, expansions, List.map_map]
    rfl

/-- A recorded call ends on the line that it begins on or further down, for the name that it calls ends in it. -/
theorem Scan.Found.line_le {source : Text} {typeComments : Bool} {version : Nat} {tree : Tree} {c : Scan.Context}
    {scan : Scan} (found : Found c tree scan) (parsed : parseModule source typeComments version = .ok tree) {site : CallSite} (recorded : site ∈ scan.sites) : site.span.start.line ≤ site.span.stop.line := by
  rw [found.sites] at recorded
  obtain ⟨call, member, name, free, isCallee, rfl⟩ := CallContext.exists_call (CallContext.mem_callsOf.mp recorded)
  obtain ⟨-, callee, isCall, only, usage, isName⟩ :=
    (CallContext.callee?_eq_some ((shaped_of_parseModule parsed).of_mem member)).mp isCallee
  obtain ⟨first, last, -⟩ := (call_of_parseModule parsed member isCall).callee callee (only ▸ .head _) (by rw [isName]; rfl)
  exact Prod.Lex.monotone_fst _ _ (first.trans last)

/-- In a pass that succeeds each macro gets one expression.  In the text it takes the place of each call, bare or in
brackets, with as many line feeds as the call has lines behind its first, which in the source are as many ends of lines
as the call has, whatever ends them.  In the tree what the expression reads as stands where an outermost call stood. -/
theorem replaced_calls_share_expressions {σ : Type} {settings : Settings} {execute : Executor σ} {source path : Text}
    {s : PassState σ} {expanded : Expanded}
    (runs : ∀ call world text, (execute call world).outcome = .ok text → Serialized text)
    (stored : Pass.AllStored Serialized s.cache)
    (succeeded : ((expandMacros settings execute source path).outcome s).1 = .ok expanded) :
    ∃ tree scan r, Pass.scanned settings source path = .ok (tree, scan) ∧
      (scan.definitions ≠ [] →
        Pass.finish ⟨settings, execute, source, source.lines, scan⟩ path tree r = .ok expanded) ∧
      ∃ (expression : String → Text) (result : String → Tree),
        (∀ site ∈ scan.sites, parseExpression (expression site.name) = .ok (result site.name)) ∧
        List.Forall₂ (fun (site : CallSite) (edit : Edit) =>
            Rewriting.Wraps site (result site.name) (expression site.name) edit.replacement ∧
            edit.start = site.span.start ∧ edit.stop = site.span.stop ∧ edit.KeepsLines ∧ edit.KeepsBreaks source)
          scan.sites r.edits ∧
        Rewriting.apply r.expansions tree =
          (Plan.mk (scan.sites.map fun site => ⟨site, result site.name⟩) (.of [] source.lines)).outcome tree := by
  obtain ⟨tree, scan, value, r, isScanned, writes, flat, finished⟩ := Pass.exists_writes (P := Flat)
    (fun call world text ran => (runs call world text ran).flat) (fun key text found => (stored key text found).flat)
    Text.flat_nil succeeded
  have found := Pass.found_of_scanned isScanned
  have parsed := Pass.parsed_of_scanned isScanned
  have labelled := labelled_of_parseModule parsed
  have noLambda : tree.kind ≠ .lambdaExpr := by
    obtain ⟨ignores, isModule⟩ := module_of_parseModule parsed
    simp [isModule]
  obtain ⟨result, reads, expansions, edits⟩ := writes.exists_results
  refine ⟨tree, scan, r, isScanned, finished, value, result, reads, ?_, ?_⟩
  · rw [edits, List.forall₂_map_right_iff, List.forall₂_same]
    intro site member
    obtain ⟨call, inside, ofCall⟩ := found.site_of (.inl member)
    have fits : (Pass.editOf ⟨site, result site.name⟩ _).Fits source := ofCall.fits parsed inside (flat site.name)
    exact ⟨Rewriting.wraps_replacement site _ _, rfl, rfl,
      fits.keepsLines (Int.ofNat_le.mpr (found.line_le parsed member)), fits.keepsBreaks⟩
  · have unlabelled : ∀ site ∈ scan.sites, (result site.name).Unlabelled := fun site member =>
      unlabelled_of_parseExpression (reads site member)
    have fits := found.fits labelled (wellFormed_of_parseModule parsed) noLambda unlabelled
    rw [expansions]
    refine @Plan.apply_eq_outcome ⟨_, .of [] source.lines⟩ tree fits.isCall fun n => ?_
    simp [Removal.Context.removes, Removal.Context.name?, Removal.Context.of]

/-- A call on three lines whose macro gives a list. -/
def spreadCall : Text := chars "def m():\n    'use macro'\n    return [1]\nx = m(\n\n)\n"

theorem spread_call_shares_expression :
    let execute : Executor Unit := fun _ world => ⟨.ok (chars "[1]"), [], world⟩
    ∃ expanded, ((expandMacros {} execute spreadCall (chars "m.py")).outcome { world := () }).1 = .ok expanded ∧
      expanded.emitted.code = chars "\n\n\nx = ([1]\n\n)  # @__MACRO__ m\n" ∧
      ∃ tree scan r edit, Pass.finish ⟨{}, execute, spreadCall, spreadCall.lines, scan⟩ (chars "m.py") tree r = .ok expanded ∧
        r.edits = [edit] ∧ edit.KeepsLines ∧ edit.KeepsBreaks spreadCall := by
  intro execute
  obtain ⟨⟨tree, scan⟩, isScanned, some, one⟩ : ∃ file, Pass.scanned {} spreadCall (chars "m.py") = .ok file ∧
      file.2.definitions ≠ [] ∧ file.2.sites.length = 1 := by
    rw [show spreadCall = _ from chars_ofList _]
    decide +kernel
  obtain ⟨expanded, succeeded, code⟩ := Except.exists_of_map (b := chars "\n\n\nx = ([1]\n\n)  # @__MACRO__ m\n")
    (f := fun expanded : Expanded => expanded.emitted.code)
    (x := ((expandMacros {} execute spreadCall (chars "m.py")).outcome { world := () }).1)
    (by rw [Pass.expandMacros_code rfl, show spreadCall = _ from chars_ofList _]; decide +kernel)
  have serialized : Serialized (chars "[1]") :=
    ⟨nestingLimit, #[.list [.scalar (.int 1)]], .ref 0, [], by simp [Object.OneLine, Object.Names], by decide +kernel⟩
  obtain ⟨tree, scan', r, isScanned', finished, _, _, -, edits, -⟩ := replaced_calls_share_expressions
    (fun call world text ran => by cases ran; exact serialized) (fun key text found => by cases found) succeeded
  cases isScanned.symm.trans isScanned'
  obtain ⟨edit, only⟩ := List.length_eq_one_iff.mp (edits.length_eq ▸ one)
  obtain ⟨site, same⟩ := List.length_eq_one_iff.mp one
  rw [only, same] at edits
  obtain ⟨⟨-, -, -, lines, breaks⟩, -⟩ := List.forall₂_cons.mp edits
  exact ⟨expanded, succeeded, code, tree, scan, r, edit, finished some, only, lines, breaks⟩

/-- The text of a file in which all recorded calls are replaced by one expression. -/
def withCallsReplaced (source expression : Text) : Option Text := do
  let tree ← (parseModule source).toOption
  let scan ← (scanTree [] (chars "use macro") source.lines tree).2.toOption
  let r ← scan.sites.foldlM (fun r site => ((r.expand site expression).toOption).map Prod.fst)
    ({} : Rewriting)
  (source.splice r.edits).toOption

/-- The result of a call runs into the word right behind it, and the text is no program any more. -/
theorem adjoining_word_unreadable :
    let source := chars "def m():\n    'use macro'\n    return None\nx = m()if 1 else 0\n"
    let edited := chars "def m():\n    'use macro'\n    return None\nx = Noneif 1 else 0\n"
    withCallsReplaced source (chars "None") = some edited ∧ (parseModule edited).isOk = false := by
  intro source edited
  rw [show source = _ from chars_ofList _, show edited = _ from chars_ofList _]
  constructor <;> decide +kernel

/-- In a pass that succeeds each statement of a macro is edited once.  The edit goes from the line of the first
decorator to the last line of the statement.  It leaves blanks or a `pass`, and in the source it takes as many ends of
lines away as it writes, whatever ends them. -/
theorem Removal.removed_statements_keep_lines {σ : Type} {settings : Settings} {execute : Executor σ} {source path : Text}
    {s : PassState σ} {expanded : Expanded}
    (succeeded : ((expandMacros settings execute source path).outcome s).1 = .ok expanded) :
    ∃ tree scan r, Pass.scanned settings source path = .ok (tree, scan) ∧
      (scan.definitions ≠ [] →
        Pass.finish ⟨settings, execute, source, source.lines, scan⟩ path tree r = .ok expanded) ∧
      let c := Context.of scan.definitions source.lines
      ∃ statements, statements.Perm (scan.definitions.map Definition.statement) ∧
        List.Forall₂ (fun (t : Tree) (edit : Edit) =>
            Leaves (c.front t) ((t.span c.lines).stop.line - (c.start t).line) edit.replacement ∧
            edit.start.line = (c.start t).line ∧ edit.stop.line = (t.span c.lines).stop.line ∧
            edit.KeepsBreaks source ∧ (edit.start.line ≤ edit.stop.line → edit.KeepsLines))
          statements (c.strip (Rewriting.apply r.expansions tree)).edits := by
  obtain ⟨tree, scan, value, r, isScanned, writes, -, finished⟩ := Pass.exists_writes (P := fun _ => True)
    (fun _ _ _ _ => trivial) (fun _ _ _ => trivial) trivial succeeded
  have found := Pass.found_of_scanned isScanned
  have parsed := Pass.parsed_of_scanned isScanned
  have labelled := labelled_of_parseModule parsed
  have formed := wellFormed_of_parseModule parsed
  obtain ⟨ignores, isModule⟩ := module_of_parseModule parsed
  have noLambda : tree.kind ≠ .lambdaExpr := by simp [isModule]
  have noStatement : tree.kind.role ≠ .statement := by simp [isModule, Kind.role]
  obtain ⟨result, reads, expansions, -⟩ := writes.exists_results
  have unlabelled : ∀ site ∈ scan.sites, (result site.name).Unlabelled := fun site member =>
    unlabelled_of_parseExpression (reads site member)
  have fits := found.fits labelled formed noLambda unlabelled
  have perm := found.dropped_perm labelled formed noLambda noStatement
  refine ⟨tree, scan, r, isScanned, finished, _, perm, ?_⟩
  obtain ⟨marked, edits, statements⟩ := editsOf_strip (c := Context.of scan.definitions source.lines)
    (Rewriting.apply r.expansions tree)
  have dropped : marked.map Prod.fst = (Context.of scan.definitions source.lines).dropped tree := by
    rw [statements, expansions]
    exact fits.dropped_apply
  rw [edits, ← dropped, List.forall₂_map_left_iff, List.forall₂_map_right_iff, List.forall₂_same]
  rintro ⟨t, withPass⟩ isMarked
  have isDropped := dropped ▸ List.mem_map.mpr ⟨(t, withPass), isMarked, rfl⟩
  obtain ⟨d, isDefinition, rfl⟩ := List.mem_map.mp (perm.mem_iff.mp isDropped)
  obtain ⟨p, lambda, -, defines⟩ := found.defined d isDefinition
  obtain ⟨isPlaced, noText⟩ := Kind.isPlaced_of_statement defines.statement_role
  have fitting := fits_edit (c := Context.of scan.definitions source.lines) rfl parsed (mem_dropped isDropped).1 isPlaced
    noText withPass
  obtain ⟨leaves, start, stop⟩ := leaves_edit (Context.of scan.definitions source.lines) withPass d.statement
  exact ⟨leaves, start, stop, fitting.keepsBreaks, fitting.keepsLines⟩

/-- A macro below another statement, with a decorator. -/
def decoratedMacro : Text := chars "x = 1\n@dec\ndef m():\n    'use macro'\n    return 1\n"

theorem decorated_statement_keeps_lines :
    let execute : Executor Unit := fun _ world => ⟨.ok ['1'], [], world⟩
    ∃ expanded, ((expandMacros {} execute decoratedMacro (chars "m.py")).outcome { world := () }).1 = .ok expanded ∧
      expanded.emitted.code = chars "x = 1\n\n\n\n\n" ∧
      ∃ tree scan r edit, Pass.finish ⟨{}, execute, decoratedMacro, decoratedMacro.lines, scan⟩ (chars "m.py") tree r =
          .ok expanded ∧
        ((Removal.Context.of scan.definitions decoratedMacro.lines).strip (Rewriting.apply r.expansions tree)).edits =
          [edit] ∧
        edit.start.line = 2 ∧ edit.stop.line = 5 ∧ edit.KeepsLines ∧ edit.KeepsBreaks decoratedMacro := by
  intro execute
  obtain ⟨⟨tree, scan⟩, isScanned, lines⟩ : ∃ file, Pass.scanned {} decoratedMacro (chars "m.py") = .ok file ∧
      let c := Removal.Context.of file.2.definitions decoratedMacro.lines
      file.2.definitions.map (fun d => ((c.start d.statement).line, (d.statement.span c.lines).stop.line)) = [(2, 5)] := by
    rw [show decoratedMacro = _ from chars_ofList _]
    decide +kernel
  obtain ⟨expanded, succeeded, code⟩ := Except.exists_of_map (b := chars "x = 1\n\n\n\n\n")
    (f := fun expanded : Expanded => expanded.emitted.code)
    (x := ((expandMacros {} execute decoratedMacro (chars "m.py")).outcome { world := () }).1)
    (by rw [Pass.expandMacros_code rfl, show decoratedMacro = _ from chars_ofList _]; decide +kernel)
  obtain ⟨tree, scan', r, isScanned', finished, statements, perm, edits⟩ :=
    Removal.removed_statements_keep_lines succeeded
  cases isScanned.symm.trans isScanned'
  obtain ⟨d, only⟩ : ∃ d, scan.definitions = [d] := List.length_eq_one_iff.mp (by simpa using congrArg List.length lines)
  have some : scan.definitions ≠ [] := by simp [only]
  simp only [only, List.map_cons, List.map_nil, List.cons.injEq, Prod.mk.injEq, and_true] at lines
  obtain rfl := List.perm_singleton.mp (by simpa [only] using perm)
  obtain ⟨edit, same⟩ := List.length_eq_one_iff.mp edits.length_eq.symm
  rw [same] at edits
  obtain ⟨⟨-, start, stop, breaks, keepsLines⟩, -⟩ := List.forall₂_cons.mp edits
  rw [only] at start stop
  rw [lines.1] at start
  rw [lines.2] at stop
  exact ⟨expanded, succeeded, code, tree, scan, r, edit, finished some, same, start, stop, keepsLines (by omega), breaks⟩


/-- The text of a file without the definitions of its macros. -/
def withoutDefinitions (source : Text) : Option Text := do
  let tree ← (parseModule source).toOption
  let scan ← (scanTree [] (chars "use macro") source.lines tree).2.toOption
  (source.splice ((Removal.Context.of scan.definitions source.lines).strip tree).edits).toOption

/-- A decorator that begins below its sign leaves the sign behind, and the text is no program. -/
theorem lowered_decorator_unreadable :
    let source := chars "@(\ndec\n)\ndef m():\n    'use macro'\n    return 1\n"
    withoutDefinitions source = some (chars "@(\n\n\n\n\n\n") ∧
      (parseModule (chars "@(\n\n\n\n\n\n")).isOk = false := by
  intro source
  rw [show source = _ from chars_ofList _]
  constructor <;> decide +kernel

end MacroExpand

namespace MacroExpand

open Text (Flat HasPosition)

end MacroExpand
