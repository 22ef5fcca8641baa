import MacroExpand.CommandLine.Program
import MacroExpand.Proofs.Building
import MacroExpand.Proofs.Cycles
import MacroExpand.Proofs.Forwarding
import MacroExpand.Proofs.Rescanning

/-!
# Failures that the program reports

A pass fails because a text is no program, a scan or a run of a macro fails, or the result cannot be written
into the text.  Most of these failures end the program with status one and a line that names the place.  The
rest are told here one by one: none of them is a failure of a macro, of a program text or of a file operation,
and all go by what the file holds or by what the runs gave.
-/

set_option autoImplicit false

namespace MacroExpand

namespace Pass

variable {σ : Type} {c : Context σ} {tree : Tree}

/-! ## Why replacing calls fails -/

def Given (execute : Executor σ) (before : Trail) (runs : List Invocation) (text : Text) : Prop :=
  (∃ key, before.cache.get? key = some text) ∨
    ∃ call ∈ runs, ∃ world, (execute call world).outcome = .ok text

theorem Given.later {execute : Executor σ} {before : Trail} {runs runs' : List Invocation} {text : Text}
    (given : Given execute before runs text) (more : runs ⊆ runs') : Given execute before runs' text := by
  rcases given with stored | ⟨call, ran, gave⟩
  · exact .inl stored
  · exact .inr ⟨call, more ran, gave⟩

inductive Cause (c : Context σ) (before : Trail) (runs : List Invocation) : PassError → Prop where
  | cycle {d : Definition} {chain : List String} : Cause c before runs (cycle d chain)
  | run {call : Invocation} {world : σ} {e : RunError} (ran : call ∈ runs)
      (broke : (c.execute call world).outcome = .error e) :
      Cause c before runs (ofRunError call.definition e)
  | result {text : Text} {f : SourceFault} (given : Given c.execute before runs text)
      (unparsed : parseExpression text = .error f) : Cause c before runs (.expansion (.fault f))
  | arguments {site : CallSite} {r : Rewriting} {e : EditError} (stands : c.Stands site r)
      (unwritten : c.source.splice r.edits (some (site.argsSpan.start, site.argsSpan.stop)) = .error e) :
      Cause c before runs (.emit (.edit e))

/-- Stored results are known, and only macros of the chain are being computed. -/
structure Traced (c : Context σ) (before : Trail) (chain : List String) (t : Trail) : Prop where
  stored : ∀ key text, t.cache.get? key = some text → Given c.execute before t.runs text
  computed : ∀ d ∈ c.scan.definitions, t.cache.ticket? (c.key d) ≠ none → d.name ∈ chain

namespace Traced

variable {before t u : Trail} {chain : List String} {d : Definition}

theorem claim (traced : Traced c before chain t) (absent : t.cache.get? (c.key d) = none)
    (free : t.cache.ticket? (c.key d) = none) :
    Traced c before (chain ++ [d.name]) { t with cache := (t.cache.claim (c.key d)).1 } := by
  refine ⟨fun key text found => traced.stored key text (by simpa using found), ?_⟩
  intro d' isDefinition busy
  rw [ne_eq, Cache.ticket?_claim absent free, not_and_or, not_not] at busy
  rcases busy with earlier | same
  · exact List.mem_append_left _ (traced.computed d' isDefinition earlier)
  · exact List.mem_append_right _ (List.mem_singleton.mpr (Context.name_of_key same))

theorem store {call : Invocation} {world : σ} {text : Text} (traced : Traced c before chain u)
    (ran : (c.execute call world).outcome = .ok text) (key : CacheKey) :
    ∀ key' text', (u.cache.settle key text).1.get? key' = some text' →
      Given c.execute before (u.runs ++ [call]) text' := by
  intro key' text' found
  rw [Cache.settle_eq, Cache.get?_release, Cache.get?_put] at found
  cases earlier : u.cache.get? key' with
  | some stored =>
    rw [earlier] at found
    cases found
    exact (traced.stored key' text' earlier).later (List.subset_append_left _ _)
  | none =>
    rw [earlier, Option.none_or] at found
    by_cases same : key' = key
    · rw [if_pos same] at found
      cases found
      exact .inr ⟨call, List.mem_append_right _ List.mem_cons_self, world, ran⟩
    · rw [if_neg same] at found
      cases found

theorem later {may : String → Prop} {new : List Invocation} (traced : Traced c before chain t)
    (adds : Adds c may t u new)
    (stored : ∀ key text, u.cache.get? key = some text → Given c.execute before u.runs text) :
    Traced c before chain u := by
  refine ⟨stored, fun d isDefinition busy => traced.computed d isDefinition ?_⟩
  rwa [adds.ticket?] at busy

end Traced

section Causes

variable {path directive : Text} {before : Trail}

mutual

/-- Getting the result of a macro fails for a cause, or gives a text that is known. -/
theorem Expands.causes {chain : List String} {d : Definition} {site : CallSite} {arguments : Text}
    {t u : Trail} {result : Except PassError Text}
    (found : Scan.Found ⟨path, directive, c.source.lines⟩ tree c.scan) (labelled : tree.Labelled)
    (expands : Expands c chain d site arguments t result u) (isDefinition : d ∈ c.scan.definitions)
    (traced : Traced c before chain t) :
    (∀ e, result = .error e → Cause c before u.runs e) ∧
      ∀ text, result = .ok text → Given c.execute before u.runs text ∧ Traced c before chain u :=
  match expands with
  | .cycle _ => by
    refine ⟨fun e same => ?_, fun _ same => by cases same⟩
    cases same
    exact .cycle
  | .hit _ stored => by
    refine ⟨fun _ same => (by cases same), fun text same => ?_⟩
    cases same
    exact ⟨traced.stored _ _ stored, traced⟩
  | .waits isNew _ busy => absurd (traced.computed d isDefinition (by simp [busy])) isNew
  | .fails _ absent free body => by
    have recorded : c.Recorded ([] ++ d.calls) := .inr ⟨d, isDefinition, rfl⟩
    obtain ⟨failed, -⟩ := body.causes found labelled (.start found labelled recorded) (traced.claim absent free) recorded
      .none
    refine ⟨fun e same => ?_, fun _ same => by cases same⟩
    cases same
    exact failed _ rfl
  | .breaks _ _ _ _ ran => by
    have cause : ∀ runs, _ ∈ runs → Cause c before runs _ := fun runs member => .run member ran
    refine ⟨fun e same => ?_, fun _ same => by cases same⟩
    cases same
    exact cause _ (List.mem_append_right _ List.mem_cons_self)
  | .runs isNew absent free body ran => by
    have whole : Expands c chain d site arguments t _ _ := .runs isNew absent free body ran
    obtain ⟨new, adds, isStored⟩ := whole.adds isDefinition
    have recorded : c.Recorded ([] ++ d.calls) := .inr ⟨d, isDefinition, rfl⟩
    obtain ⟨-, done⟩ := body.causes found labelled (.start found labelled recorded) (traced.claim absent free) recorded
      .none
    have after := traced.later adds ((done _ rfl).1.store ran (c.key d))
    refine ⟨fun _ same => (by cases same), fun text same => ?_⟩
    cases same
    exact ⟨after.stored _ _ (isStored _ rfl).1, after⟩

theorem ExpandsAll.causes {chain : List String} {r : Rewriting} {earlier sites : List CallSite} {t u : Trail}
    {result : Except PassError Rewriting}
    (found : Scan.Found ⟨path, directive, c.source.lines⟩ tree c.scan) (labelled : tree.Labelled)
    (expands : ExpandsAll c chain r sites t result u) (begun : Begun c tree r sites)
    (traced : Traced c before chain t) (recorded : c.Recorded (earlier ++ sites)) (replaces : r.Replaces earlier) :
    (∀ e, result = .error e → Cause c before u.runs e) ∧
      ∀ r', result = .ok r' → Traced c before chain u ∧ r'.Replaces (earlier ++ sites) :=
  match expands with
  | .done => ⟨fun _ same => (by cases same), fun _ same => (by cases same; simpa using ⟨traced, replaces⟩)⟩
  | .skips unknown _ => by
    obtain ⟨d, known⟩ := begun.known _ (.head _)
    cases unknown.symm.trans known
  | .stops _ unwritten => by
    refine ⟨fun e same => ?_, fun _ same => by cases same⟩
    cases same
    exact .arguments ⟨earlier, _, recorded, replaces⟩ unwritten
  | .fails known _ call => by
    obtain ⟨failed, -⟩ := call.causes found labelled (Scan.definition?_eq_some known).1 traced
    refine ⟨fun e same => ?_, fun _ same => by cases same⟩
    cases same
    exact failed _ rfl
  | .refuses known _ call refused => by
    obtain ⟨-, done⟩ := call.causes found labelled (Scan.definition?_eq_some known).1 traced
    obtain ⟨f, rfl, unparsed⟩ := begun.fault_of_refused refused
    refine ⟨fun e same => ?_, fun _ same => by cases same⟩
    cases same
    exact .result (done _ rfl).1 unparsed
  | .replaces known _ call replaced next => by
    obtain ⟨-, done⟩ := call.causes found labelled (Scan.definition?_eq_some known).1 traced
    obtain ⟨failed, ended⟩ := next.causes found labelled (begun.next replaced) (done _ rfl).2 (by simpa using recorded)
      (replaces.next replaced)
    exact ⟨failed, fun r' same => by simpa using ended r' same⟩

end

end Causes

/-! ## Why a pass fails -/

inductive Fails (settings : Settings) (execute : Executor σ) (source path : Text) (s t : PassState σ) :
    PassError → Prop where
  | fault {f : SourceFault} (unparsed : parseModule source (settings.typeCommentsFor path) = .error f) :
      Fails settings execute source path s t (.fault f)
  | scan {tree : Tree} {e : ScanError} (parsed : parseModule source (settings.typeCommentsFor path) = .ok tree)
      (unscanned : (scanTree path settings.directive source.lines tree).2 = .error e) :
      Fails settings execute source path s t (.scan e)
  | replacing {tree : Tree} {scan : Scan} {e : PassError} (isScanned : scanned settings source path = .ok (tree, scan))
      (cause : Cause ⟨settings, execute, source, source.lines, scan⟩ s.trail t.runs e) :
      Fails settings execute source path s t e
  | emit {tree : Tree} {scan : Scan} {r : Rewriting} {e : EmitError}
      (isScanned : scanned settings source path = .ok (tree, scan)) (replaces : r.Replaces scan.sites)
      (unwritten :
        let removal := (Removal.Context.of scan.definitions source.lines).strip (Rewriting.apply r.expansions tree)
        emit removal.kept source (r.edits ++ removal.edits) (emitOptions settings path) = .error e) :
      Fails settings execute source path s t (.emit e)

theorem fails_of_finish {scan : Scan} {settings : Settings} {execute : Executor σ} {source path : Text}
    {s t : PassState σ} {r : Rewriting} {e : PassError} (isScanned : scanned settings source path = .ok (tree, scan))
    (replaces : r.Replaces scan.sites)
    (failed : finish ⟨settings, execute, source, source.lines, scan⟩ path tree r = .error e) :
    Fails settings execute source path s t e := by
  let removal := (Removal.Context.of scan.definitions source.lines).strip (Rewriting.apply r.expansions tree)
  unfold finish at failed
  dsimp only at failed
  cases written : emit removal.kept source (r.edits ++ removal.edits) (emitOptions settings path) with
  | ok emitted =>
    rw [written] at failed
    cases failed
  | error e' =>
    rw [written] at failed
    cases failed
    exact .emit isScanned replaces written

theorem fails_of_scanned {settings : Settings} {execute : Executor σ} {source path : Text}
    {s t : PassState σ} {e : PassError} (failed : scanned settings source path = .error e) :
    Fails settings execute source path s t e := by
  unfold scanned at failed
  cases parsed : parseModule source (settings.typeCommentsFor path) with
  | error f =>
    rw [parsed] at failed
    cases failed
    exact .fault parsed
  | ok tree =>
    rw [parsed] at failed
    dsimp only at failed
    cases found : (scanTree path settings.directive source.lines tree).2 with
    | error e' =>
      rw [found] at failed
      cases failed
      exact .scan parsed found
    | ok scan =>
      rw [found] at failed
      cases failed

/-- A pass fails for a reason, if no results are being computed when it begins. -/
theorem fails_of_expandMacros {settings : Settings} {execute : Executor σ} {source path : Text}
    {s t : PassState σ} {e : PassError} (idle : ∀ key, s.cache.ticket? key = none)
    (ended : (expandMacros settings execute source path).outcome s = (.error e, t)) :
    Fails settings execute source path s t e := by
  have pass := expandMacros_expands settings execute source path s
  rw [ended] at pass
  cases isScanned : scanned settings source path with
  | error e' =>
    rw [isScanned] at pass
    cases pass.1
    exact fails_of_scanned isScanned
  | ok file =>
    obtain ⟨tree, scan⟩ := file
    rw [isScanned] at pass
    obtain ⟨-, plain, -⟩ | ⟨-, replaced, all, result⟩ := pass
    · obtain ⟨sourceMap, emitted⟩ := emit_unchanged tree source (emitOptions settings path)
      rw [unchanged, emitted] at plain
      cases plain
    · have traced : Traced ⟨settings, execute, source, source.lines, scan⟩ s.trail [] s.trail :=
        ⟨fun key text stored => .inl ⟨key, stored⟩, fun d _ busy => absurd (idle _) busy⟩
      have found := found_of_scanned isScanned
      have labelled := labelled_of_scanned isScanned
      have begun := Begun.start (c := ⟨settings, execute, source, source.lines, scan⟩) found labelled (.inl rfl)
      have recorded : Context.Recorded ⟨settings, execute, source, source.lines, scan⟩ ([] ++ scan.sites) := .inl rfl
      obtain ⟨failed, done⟩ := all.causes found labelled begun traced recorded .none
      cases replaced with
      | error e' =>
        cases result
        exact .replacing isScanned (failed _ rfl)
      | ok r => exact fails_of_finish isScanned (done r rfl).2 result.symm

/-- The failures of a pass that the program does not report. -/
inductive Unreported (settings : Settings) (execute : Executor σ) (source path : Text) (s t : PassState σ) :
    PassError → Prop where
  /-- The parser refuses the file for the character with code zero. -/
  | zero {f : SourceFault} (unparsed : parseModule source (settings.typeCommentsFor path) = .error f)
      (isZero : f.kind = .nullCharacter) : Unreported settings execute source path s t (.fault f)
  /-- The parameters of a macro cannot be printed. -/
  | parameters {tree : Tree} {e : PrintError}
      (parsed : parseModule source (settings.typeCommentsFor path) = .ok tree)
      (unscanned : (scanTree path settings.directive source.lines tree).2 = .error (.unprintable e)) :
      Unreported settings execute source path s t (.scan (.unprintable e))
  /-- A result holds a message whose body nobody has read. -/
  | message {call : Invocation} {world : σ} {e : SerializeError} (ran : call ∈ t.runs)
      (broke : (execute call world).outcome = .error (.unwritable e))
      (unread : e = .requestNotRead ∨ e = .responseNotRead) :
      Unreported settings execute source path s t (.unwritable e)
  /-- The parser refuses a result for the character with code zero. -/
  | result {text : Text} {f : SourceFault} (given : Given execute s.trail t.runs text)
      (unparsed : parseExpression text = .error f) (isZero : f.kind = .nullCharacter) :
      Unreported settings execute source path s t (.expansion (.fault f))
  /-- The arguments of a recorded call cannot be cut out, with the calls replaced that are recorded in front of it. -/
  | arguments {tree : Tree} {scan : Scan} {site : CallSite} {r : Rewriting} {e : EditError}
      (isScanned : scanned settings source path = .ok (tree, scan))
      (stands : (⟨settings, execute, source, source.lines, scan⟩ : Context σ).Stands site r)
      (unwritten : source.splice r.edits (some (site.argsSpan.start, site.argsSpan.stop)) = .error e) :
      Unreported settings execute source path s t (.emit (.edit e))
  /-- The file with its calls replaced and the statements of its macros removed cannot be emitted, for other reasons than
  its indentation. -/
  | emit {tree : Tree} {scan : Scan} {r : Rewriting} {e : EmitError}
      (isScanned : scanned settings source path = .ok (tree, scan)) (replaces : r.Replaces scan.sites)
      (unwritten :
        let removal := (Removal.Context.of scan.definitions source.lines).strip (Rewriting.apply r.expansions tree)
        emit removal.kept source (r.edits ++ removal.edits) (emitOptions settings path) = .error e)
      (other : ∀ line, e ≠ .scan (.indentation line)) :
      Unreported settings execute source path s t (.emit e)

end Pass

open Pass

/-! ## What the program says -/

namespace CommandLine

/-- The program ends with status one and a line that says why. -/
def Reports (e : LoadError) : Prop := ∃ line, ended (.error e) = (.exit 1, line ++ ['\n'])

theorem reports_of_line {e : LoadError} {line : Text} (said : errorLine? e = some line) : Reports e :=
  ⟨line, by rw [ended, said]⟩

theorem escapes_of_none {e : LoadError} (none : errorLine? e = none) :
    ended (.error e) = (.escaped e.toReport, []) := by
  rw [ended, none]

theorem no_line_for_edit (path : Text) (e : EditError) : errorLine? (.pass path (.emit (.edit e))) = none := by
  cases e with
  | noSuchLine => rfl
  | overlapping line => rfl
  | changesLines line => rfl

theorem reports_failure (path : Text) (f : Failure) : Reports (.pass path (.failure f)) :=
  reports_of_line rfl

theorem reports_run (path : Text) (d : Definition) {e : RunError}
    (polite : ∀ kind message, e ≠ .interrupted kind message) :
    Reports (.pass path (ofRunError d e)) ∨
      ∃ e', e = .unwritable e' ∧ (e' = .requestNotRead ∨ e' = .responseNotRead) ∧
        ofRunError d e = .unwritable e' := by
  cases e with
  | failed f => exact .inl (reports_failure path f)
  | interrupted kind message => exact absurd rfl (polite kind message)
  | unwritable e' =>
    by_cases unread : e' = .requestNotRead ∨ e' = .responseNotRead
    · refine .inr ⟨e', rfl, unread, ?_⟩
      rcases unread with rfl | rfl
      · rfl
      · rfl
    · refine .inl ?_
      have isFailure : ∃ f, ofRunError d (.unwritable e') = .failure f := by
        cases e' with
        | requestNotRead => exact absurd (.inl rfl) unread
        | responseNotRead => exact absurd (.inr rfl) unread
        | _ => exact ⟨_, rfl⟩
      obtain ⟨f, same⟩ := isFailure
      rw [same]
      exact reports_failure path f

end CommandLine

open CommandLine

/-- The failures of loading a file that the program does not report. -/
inductive Build.Unreported (c : Build.Context) (path : PathText) (s t : PassState World) : LoadError → Prop where
  | encoding {bytes : List UInt8} {e : Utf8Error} (read : s.world.files.read path = .ok bytes)
      (undecoded : utf8Decode bytes = .error e) : Unreported c path s t (.encoding e)
  | pass {bytes : List UInt8} {text : Text} {e : PassError} (read : s.world.files.read path = .ok bytes)
      (decoded : utf8Decode bytes = .ok text)
      (unreported : Pass.Unreported c.settings c.execute text path.text s t e) :
      Unreported c path s t (.pass path.text e)

theorem Pass.unreported_of_fails {settings : Settings} {execute : Executor World} {source path : Text}
    {s t : PassState World} {e : PassError} (polite : ∀ call world kind message,
      (execute call world).outcome ≠ .error (.interrupted kind message))
    (fails : Pass.Fails settings execute source path s t e) :
    Reports (.pass path e) ∨
      Pass.Unreported settings execute source path s t e ∧ errorLine? (.pass path e) = none := by
  cases fails with
  | @fault f unparsed =>
    by_cases isZero : f.kind = .nullCharacter
    · exact .inr ⟨.zero unparsed isZero, if_pos isZero⟩
    · exact .inl (reports_of_line (if_neg isZero))
  | @scan tree e parsed unscanned =>
    cases e with
    | naming f => exact .inl (reports_of_line rfl)
    | unprintable e => exact .inr ⟨.parameters parsed unscanned, rfl⟩
  | replacing isScanned cause =>
    cases cause with
    | cycle => exact .inl (reports_failure path _)
    | @run call world e ran broke =>
      have goesOn : ∀ kind message, e ≠ .interrupted kind message := by
        rintro kind message rfl
        exact polite call world kind message broke
      rcases reports_run path call.definition goesOn with reports | ⟨e', rfl, unread, same⟩
      · exact .inl reports
      · rw [same]
        refine .inr ⟨.message ran broke unread, ?_⟩
        rcases unread with rfl | rfl
        · rfl
        · rfl
    | @result text f given unparsed =>
      by_cases isZero : f.kind = .nullCharacter
      · exact .inr ⟨.result given unparsed isZero, if_pos isZero⟩
      · exact .inl (reports_of_line (if_neg isZero))
    | arguments stands unwritten => exact .inr ⟨.arguments isScanned stands unwritten, no_line_for_edit path _⟩
  | @emit tree scan r e isScanned replaces unwritten =>
    by_cases indented : ∃ line, e = .scan (.indentation line)
    · obtain ⟨line, rfl⟩ := indented
      exact .inl (reports_of_line rfl)
    · refine .inr ⟨.emit isScanned replaces unwritten fun line same => indented ⟨line, same⟩, ?_⟩
      cases e with
      | edit e => exact no_line_for_edit path e
      | unprintable e => rfl
      | scan e =>
        cases e with
        | indentation line => exact absurd ⟨line, rfl⟩ indented
        | openString line column => rfl
        | openStatement line => rfl

theorem Build.readText_error {path : PathText} {s t : PassState World} {e : LoadError}
    (failed : BuildM.outcome (Build.readText path) s = (.error e, t)) :
    (∃ why, e = .file why) ∨ ∃ bytes why, e = .encoding why ∧ s.world.files.read path = .ok bytes ∧
      utf8Decode bytes = .error why := by
  rw [Build.readText, BuildM.outcome_bind_ok (Build.outcome_files s)] at failed
  cases read : s.world.files.read path with
  | error why =>
    rw [read] at failed
    cases failed
    exact .inl ⟨why, rfl⟩
  | ok bytes =>
    have ready : BuildM.outcome (Build.orFail (.ok bytes)) s = (.ok bytes, s) := rfl
    rw [read, BuildM.outcome_bind_ok ready] at failed
    cases decoded : utf8Decode bytes with
    | error why =>
      rw [decoded] at failed
      cases failed
      exact .inr ⟨bytes, why, rfl, rfl, decoded⟩
    | ok text =>
      rw [decoded] at failed
      cases failed

/-- A file that cannot be loaded ends the program with status one and a line that says why, apart from the
failures told above, if no run of a macro ends the whole program and no results are being computed when the
file is loaded. -/
theorem failed_load_reported {c : Build.Context} {path : PathText} {s t : PassState World} {e : LoadError}
    (idle : ∀ key, s.cache.ticket? key = none)
    (polite : ∀ call world kind message, (c.execute call world).outcome ≠ .error (.interrupted kind message))
    (failed : BuildM.outcome (Build.load c path) s = (.error e, t)) :
    Reports e ∨ Build.Unreported c path s t e ∧ ended (.error e) = (.escaped e.toReport, []) := by
  rw [Build.load] at failed
  rcases Build.readText_cases path s with ⟨bytes, text, read, decoded, ready⟩ | ⟨why, unread⟩
  · rw [BuildM.outcome_bind_ok ready] at failed
    have pass := Build.outcome_pass path.text (expandMacros c.settings c.execute text path.text) s
    rcases done : (expandMacros c.settings c.execute text path.text).outcome s with ⟨e' | expanded, u⟩
    · rw [done] at pass
      rw [BuildM.outcome_bind_error pass] at failed
      cases failed
      have fails := fails_of_expandMacros idle done
      rcases unreported_of_fails polite fails with reports | ⟨unreported, none⟩
      · exact .inl reports
      · exact .inr ⟨.pass read decoded unreported, escapes_of_none none⟩
    · rw [done] at pass
      rw [BuildM.outcome_bind_ok pass] at failed
      cases failed
  · rw [BuildM.outcome_bind_error unread] at failed
    cases failed
    rcases Build.readText_error unread with ⟨why', rfl⟩ | ⟨bytes, why', rfl, read, undecoded⟩
    · exact .inl (reports_of_line rfl)
    · exact .inr ⟨.encoding read undecoded, escapes_of_none rfl⟩

/-- A file that is no program: its bracket is never closed. -/
theorem openBracket_reported :
    let c := Build.sample false
    let s := Build.holding [(["a.py"], Build.textFile "x = (\n")]
    ∃ e t, BuildM.outcome (Build.load c (.posix (chars "a.py"))) s = (.error e, t) ∧
      (Reports e ∨ Build.Unreported c (.posix (chars "a.py")) s t e ∧
        ended (.error e) = (.escaped e.toReport, [])) := by
  intro c s
  have stops : (BuildM.outcome (Build.load c (.posix (chars "a.py"))) s).1.toOption.isSome = false := by
    decide +kernel
  rcases failed : BuildM.outcome (Build.load c (.posix (chars "a.py"))) s with ⟨e | loaded, t⟩
  · exact ⟨e, t, rfl, failed_load_reported (fun _ => rfl) (fun _ _ _ _ same => by cases same) failed⟩
  · rw [failed] at stops
    cases stops

/-- The status that a program ends with, unless an error escapes. -/
def CommandLine.Ending.status? : Ending → Option Nat
  | .exit status => some status
  | _ => none

/-- A byte that is no text makes the program end without a status. -/
theorem undecodable_file_escapes :
    (CommandLine.run { files := ⟨[], [([chars "a.py"], .file [0xff])]⟩ } [chars "a.py"]).ending.status? =
      none := by
  decide +kernel

end MacroExpand
