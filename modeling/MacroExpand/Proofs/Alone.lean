import MacroExpand.Macro.Script
import MacroExpand.Proofs.Passes

/-!
# A pass alone

A script that nobody takes turns with does what a pass does: it ends in the same way and leaves the same
results, runs, log and world.
-/

set_option autoImplicit false

namespace MacroExpand

namespace Script

variable {σ α β : Type} {execute : Executor σ}

/-- A script goes on to its end by itself; somebody else's ticket makes it fail. -/
def alone (execute : Executor σ) : PassScript PassError α → PassState σ → Except PassError α × PassState σ
  | .done result, s => (result, s)
  | .report entries rest, s => rest.alone execute { s with log := s.log ++ entries }
  | .claim key rest, s =>
    (rest (s.cache.claim key).2).alone execute { s with cache := (s.cache.claim key).1 }
  | .await _ ticket rest, s => (rest (.error (.waiting ticket))).alone execute s
  | .run call rest, s =>
    let ran := execute call s.world
    (rest (ran.outcome.mapError (Pass.ofRunError call.definition))).alone execute
      { s with runs := s.runs ++ [call], world := ran.world, log := s.log ++ ran.log }
  | .settle key _ value rest, s =>
    (rest (s.cache.settle key value).2).alone execute { s with cache := (s.cache.settle key value).1 }
  | .release key _ _ rest, s => rest.alone execute { s with cache := s.cache.release key }
  | .publish _ _ _ rest, s => rest.alone execute s

theorem alone_andThen (script : PassScript PassError α) (next : Except PassError α → PassScript PassError β)
    (s : PassState σ) : (script.andThen next).alone execute s =
      (next (script.alone execute s).1).alone execute (script.alone execute s).2 := by
  induction script generalizing s with
  | done => rfl
  | report _ _ ih | release _ _ _ _ ih | publish _ _ _ _ ih => exact ih _
  | claim _ _ ih | await _ _ _ ih | run _ _ ih | settle _ _ _ _ ih => exact ih _ _

theorem exists_runs {γ : Type} (view : σ → γ) (script : PassScript PassError α) (s : PassState σ) :
    ∃ new, (script.alone execute s).2.runs = s.runs ++ new ∧
      ((∀ call ∈ new, ∀ world, view (execute call world).world = view world) →
        view (script.alone execute s).2.world = view s.world) := by
  induction script generalizing s with
  | done => exact ⟨[], (List.append_nil _).symm, fun _ => rfl⟩
  | report _ _ ih | release _ _ _ _ ih | publish _ _ _ _ ih => exact ih _
  | claim _ _ ih | await _ _ _ ih | settle _ _ _ _ ih => exact ih _ _
  | run call rest ih =>
    obtain ⟨new, runs, kept⟩ := ih ((execute call s.world).outcome.mapError (Pass.ofRunError call.definition))
      { s with
        runs := s.runs ++ [call]
        world := (execute call s.world).world
        log := s.log ++ (execute call s.world).log }
    refine ⟨call :: new, ?_, fun quiet => ?_⟩
    · rw [alone]
      exact runs.trans (by simp)
    · rw [alone]
      have later := kept fun call member => quiet call (List.mem_cons_of_mem _ member)
      exact later.trans (quiet call List.mem_cons_self s.world)

def Does (execute : Executor σ) (script : PassScript PassError α) (step : PassM σ α) : Prop :=
  ∀ s, script.alone execute s = step.outcome s

theorem Does.bind {script : PassScript PassError α} {step : PassM σ α} {next : α → PassScript PassError β}
    {steps : α → PassM σ β} (same : Does execute script step) (rest : ∀ a, Does execute (next a) (steps a)) :
    Does execute (script.bind next) (step >>= steps) := by
  intro s
  rw [Script.bind, alone_andThen, same s, PassM.outcome_bind]
  rcases step.outcome s with ⟨e | a, t⟩
  · rfl
  · exact rest a t

theorem Does.report {script : PassScript PassError α} {step : PassM σ α} (same : Does execute script step)
    (entries : List LogEntry) :
    Does execute (.report entries script) (do Pass.report entries; step) := by
  intro s
  rw [PassM.outcome_bind_ok (Pass.outcome_report entries s)]
  exact same _

theorem does_ok (a : α) : Does execute (.done (.ok a)) (pure a) := fun _ => rfl

theorem does_error (e : PassError) : Does execute (.done (.error e) : PassScript PassError α) (throw e) :=
  fun _ => rfl

theorem does_cached {key : CacheKey} {script : PassScript PassError Text} {compute : PassM σ Text}
    (same : Does execute script compute) : Does execute (cached key.text key script) (Pass.cached key compute) := by
  intro s
  rw [Pass.cached, PassM.outcome_bind_ok (Pass.outcome_get s)]
  rw [cached, alone]
  rcases claimed : s.cache.claim key with ⟨cache, text | ticket | ticket⟩
  · obtain ⟨rfl, -⟩ := Cache.claim_hit claimed
    rfl
  · obtain ⟨rfl, -⟩ := Cache.claim_wait claimed
    rfl
  · dsimp only
    rw [alone_andThen, same, PassM.outcome_bind_ok (Pass.outcome_set _ s), PassM.outcome_bind,
      PassM.outcome_tryCatch]
    rcases compute.outcome { s with cache } with ⟨e | text, t⟩
    · rfl
    · rfl

section Expanding

variable {c : Context PassError} {result : Definition → CallSite → Text → PassScript PassError Text}
  {results : Definition → CallSite → Text → PassM σ Text}

def Context.running (c : Context PassError) (execute : Executor σ) : Pass.Context σ :=
  ⟨c.settings, execute, c.source, c.lines, c.scan⟩

theorem does_expandSites (plain : c.fault = id)
    (same : ∀ d site arguments, Does execute (result d site arguments) (results d site arguments))
    (r : Rewriting) (sites : List CallSite) :
    Does execute (expandSites c result r sites) (Pass.expandSites (c.running execute) results r sites) := by
  induction sites generalizing r with
  | nil => exact does_ok r
  | cons site rest ih =>
    rw [expandSites, Pass.expandSites]
    dsimp only [Context.running]
    cases c.scan.definition? site.name with
    | none => exact ih r
    | some callee =>
      dsimp only
      cases written : c.source.splice r.edits (some (site.argsSpan.start, site.argsSpan.stop)) with
      | error e =>
        intro s
        have stopped : (Pass.argumentsOf (c.running execute) r site).outcome s =
            (.error (.emit (.edit e)), s) := by
          rw [Pass.argumentsOf, Context.running, written]
          rfl
        rw [plain]
        exact (PassM.outcome_bind_error stopped _).symm
      | ok arguments =>
        intro s
        have ready : (Pass.argumentsOf (c.running execute) r site).outcome s = (.ok arguments, s) := by
          rw [Pass.argumentsOf, Context.running, written]
          rfl
        refine Eq.trans ?_ (PassM.outcome_bind_ok ready _).symm
        refine Does.bind (same callee site arguments) (fun text => ?_) s
        rw [Pass.replace]
        cases replaced : r.expand site text with
        | error e =>
          rw [plain]
          exact does_error (.expansion e)
        | ok pair =>
          intro t
          exact ih pair.1 _

theorem does_expandBody (plain : c.fault = id)
    (same : ∀ d site arguments, Does execute (result d site arguments) (results d site arguments))
    (d : Definition) :
    Does execute (expandBody c result d) (Pass.expandBody (c.running execute) results d) := by
  rw [expandBody, Pass.expandBody]
  split
  · exact does_ok d
  · refine Does.bind (does_expandSites plain same {} d.calls) fun r => ?_
    exact Does.report (does_ok _) _

theorem does_invoke (call : Invocation) :
    Does execute (invoke call) (Pass.run (c.running execute) call) := by
  intro s
  rw [Pass.outcome_run]
  rfl

theorem does_expandMacro (plain : c.fault = id) (free : Nat) (chain : List String) (d : Definition)
    (site : CallSite) (arguments : Text) :
    Does execute (expandMacro c free chain d site arguments)
      (Pass.expandMacro (c.running execute) free chain d site arguments) := by
  induction free generalizing chain d site arguments with
  | zero =>
    rw [expandMacro, Pass.expandMacro, plain]
    split <;> exact does_error _
  | succ free ih =>
    rw [expandMacro, Pass.expandMacro, plain]
    split
    · exact does_error _
    · refine does_cached (Does.bind (does_expandBody plain (fun d site arguments => ih _ d site arguments) d)
        fun ready => ?_)
      exact does_invoke _

theorem does_emit (tree : Tree) (source : Text) (edits : List Edit) (options : EmitOptions)
    {next : Emitted → PassScript PassError β} {steps : Emitted → PassM σ β}
    (rest : ∀ emitted, Does execute (next emitted) (steps emitted)) :
    Does execute (match emit tree source edits options with
        | .error e => .done (.error (.emit e))
        | .ok emitted => next emitted)
      (Pass.emitOrFail tree source edits options >>= steps) := by
  intro s
  rw [PassM.outcome_bind, Pass.outcome_emitOrFail]
  cases emit tree source edits options with
  | error e => rfl
  | ok emitted => exact rest emitted s

theorem does_expandFile (plain : c.fault = id) (path : Text) (tree : Tree) :
    Does execute (expandFile c path tree) (Pass.expandFile (c.running execute) path tree) := by
  rw [expandFile, Pass.expandFile, plain]
  refine Does.bind (does_expandSites plain (fun d site arguments => does_expandMacro plain _ _ d site arguments)
    {} c.scan.sites) fun r => ?_
  refine Does.report (does_emit _ _ _ _ fun emitted => ?_) _
  exact Does.report (does_ok _) _

end Expanding

theorem alone_expandMacros (settings : Settings) (execute : Executor σ) (source path : Text)
    (s : PassState σ) : (expandMacros settings id source path).alone execute s =
      (MacroExpand.expandMacros settings execute source path).outcome s := by
  rw [expandMacros, MacroExpand.expandMacros]
  cases parseModule source (settings.typeCommentsFor path) with
  | error fault => rfl
  | ok tree =>
    dsimp only
    refine Does.report ?_ _ s
    cases (scanTree path settings.directive source.lines tree).2 with
    | error e => exact does_error (.scan e)
    | ok scan =>
      dsimp only
      split
      · refine Does.report (does_emit _ _ _ _ fun emitted => ?_) _
        exact does_ok _
      · exact does_expandFile (c := ⟨settings, id, source, source.lines, scan⟩) rfl path tree

end Script

theorem expandMacros_runs {σ γ : Type} (view : σ → γ) (settings : Settings) (execute : Executor σ)
    (source path : Text) (s : PassState σ) :
    ∃ new, ((expandMacros settings execute source path).outcome s).2.runs = s.runs ++ new ∧
      ((∀ call ∈ new, ∀ world, view (execute call world).world = view world) →
        view ((expandMacros settings execute source path).outcome s).2.world = view s.world) := by
  rw [← Script.alone_expandMacros]
  exact Script.exists_runs view _ s

end MacroExpand
