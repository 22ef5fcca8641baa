import MacroExpand.Macro.Pass
import MacroExpand.Proofs.Clients
import MacroExpand.Proofs.Nesting
import MacroExpand.Proofs.Outcome
import Mathlib.Logic.Relation

/-!
# What a pass does

Of a pass, what it stores and which macros it runs is told apart from what it logs and from what the
runs do to the world.  `Expands` lists the ways in which getting the result of a macro can end, and
`ExpandsAll` those of replacing calls one after another; every pass follows them.  Sorting the edits of a pass halves their list again and
again, which cannot be computed in a proof.  With the edits put in order one by one, the code that a pass emits for a
given file can be computed (`expandMacros_code`).
-/

set_option autoImplicit false

namespace MacroExpand

open Pass

/-! ## Steps in a row -/

namespace PassM

variable {σ α β : Type}

/-- How a step ends, and the state that it leaves. -/
def outcome (step : PassM σ α) (s : PassState σ) : Except PassError α × PassState σ := step.run.run s

@[simp] theorem outcome_pure (a : α) (s : PassState σ) : outcome (pure a : PassM σ α) s = (.ok a, s) := rfl

@[simp] theorem outcome_throw (e : PassError) (s : PassState σ) :
    outcome (throw e : PassM σ α) s = (.error e, s) := rfl

theorem outcome_bind (step : PassM σ α) (next : α → PassM σ β) (s : PassState σ) :
    (step >>= next).outcome s = match step.outcome s with
      | (.ok a, t) => (next a).outcome t
      | (.error e, t) => (.error e, t) := by
  change StateT.run (ExceptT.bindCont next (step.outcome s).1) (step.outcome s).2 = _
  rcases step.outcome s with ⟨_ | _, t⟩ <;> rfl

theorem outcome_bind_ok {step : PassM σ α} {s t : PassState σ} {a : α}
    (ended : step.outcome s = (.ok a, t)) (next : α → PassM σ β) :
    (step >>= next).outcome s = (next a).outcome t := by
  rw [outcome_bind, ended]

theorem outcome_bind_error {step : PassM σ α} {s t : PassState σ} {e : PassError}
    (ended : step.outcome s = (.error e, t)) (next : α → PassM σ β) :
    (step >>= next).outcome s = (.error e, t) := by
  rw [outcome_bind, ended]

theorem exists_of_bind_ok {step : PassM σ α} {next : α → PassM σ β} {s t : PassState σ} {b : β}
    (ended : (step >>= next).outcome s = (.ok b, t)) :
    ∃ a u, step.outcome s = (.ok a, u) ∧ (next a).outcome u = (.ok b, t) := by
  rw [outcome_bind] at ended
  rcases first : step.outcome s with ⟨e | a, u⟩
  · rw [first] at ended
    cases ended
  · rw [first] at ended
    exact ⟨a, u, rfl, ended⟩

theorem outcome_tryCatch (step : PassM σ α) (handle : PassError → PassM σ α) (s : PassState σ) :
    (tryCatch step handle).outcome s = match step.outcome s with
      | (.ok a, t) => (.ok a, t)
      | (.error e, t) => (handle e).outcome t := by
  rcases same : step.outcome s with ⟨_ | _, t⟩
  · have same : step s = _ := same
    simp only [outcome, tryCatch, tryCatchThe, MonadExceptOf.tryCatch, ExceptT.tryCatch, ExceptT.run,
      ExceptT.mk, StateT.run, bind, StateT.bind]
    rw [same]
  · have same : step s = _ := same
    simp only [outcome, tryCatch, tryCatchThe, MonadExceptOf.tryCatch, ExceptT.tryCatch, ExceptT.run,
      ExceptT.mk, StateT.run, bind, StateT.bind]
    rw [same]
    rfl

end PassM

/-! ## What a pass leaves apart from the log and the world -/

/-- The stored results and the runs so far. -/
structure Trail where
  cache : Cache CacheKey Text
  runs : List Invocation

def PassState.trail {σ : Type} (s : PassState σ) : Trail := ⟨s.cache, s.runs⟩

namespace Scan

/-- The macro `a` has a call of `b` in it. -/
def Calls (scan : Scan) (a b : String) : Prop :=
  ∃ d ∈ scan.definitions, d.name = a ∧ ∃ site ∈ d.calls, site.name = b

/-- Calls in macros lead from one macro to another. -/
def Reaches (scan : Scan) : String → String → Prop := Relation.ReflTransGen scan.Calls

theorem definition?_eq_some {scan : Scan} {name : String} {d : Definition}
    (known : scan.definition? name = some d) : d ∈ scan.definitions ∧ d.name = name := by
  have isNamed := List.find?_some known
  exact ⟨List.mem_of_find?_eq_some known, by simpa using isNamed⟩

end Scan

namespace Pass

variable {σ : Type} {c : Context σ}

/-- The key of a macro. -/
def Context.key (c : Context σ) (d : Definition) : CacheKey := d.cacheKey c.settings.cachePolicy

/-- A macro with the calls in it replaced. -/
def rewritten (d : Definition) (r : Rewriting) : Definition :=
  { d with tree := Rewriting.apply r.expansions d.tree }

mutual

/-- How getting the result of a macro ends: `chain` are the macros that are being expanded. -/
inductive Expands (c : Context σ) : List String → Definition → CallSite → Text → Trail →
    Except PassError Text → Trail → Prop where
  /-- The macro is being expanded, or all macros are. -/
  | cycle {chain : List String} {d : Definition} {site : CallSite} {arguments : Text} {t : Trail}
      (again : d.name ∈ chain ∨ c.scan.definitions.length ≤ chain.length) :
      Expands c chain d site arguments t (.error (cycle d chain)) t
  | hit {chain : List String} {d : Definition} {site : CallSite} {arguments : Text} {t : Trail}
      {text : Text} (isNew : d.name ∉ chain) (found : t.cache.get? (c.key d) = some text) :
      Expands c chain d site arguments t (.ok text) t
  | waits {chain : List String} {d : Definition} {site : CallSite} {arguments : Text} {t : Trail}
      {ticket : Nat} (isNew : d.name ∉ chain) (absent : t.cache.get? (c.key d) = none)
      (busy : t.cache.ticket? (c.key d) = some ticket) :
      Expands c chain d site arguments t (.error (.waiting ticket)) t
  /-- A call in the macro cannot be expanded. -/
  | fails {chain : List String} {d : Definition} {site : CallSite} {arguments : Text} {t u : Trail}
      {e : PassError} (isNew : d.name ∉ chain) (absent : t.cache.get? (c.key d) = none)
      (free : t.cache.ticket? (c.key d) = none)
      (body : ExpandsAll c (chain ++ [d.name]) {} d.calls
        { t with cache := (t.cache.claim (c.key d)).1 } (.error e) u) :
      Expands c chain d site arguments t (.error e) { u with cache := u.cache.release (c.key d) }
  /-- The macro is run and fails. -/
  | breaks {chain : List String} {d : Definition} {site : CallSite} {arguments : Text} {t u : Trail}
      {r : Rewriting} {world : σ} {e : RunError} (isNew : d.name ∉ chain)
      (absent : t.cache.get? (c.key d) = none) (free : t.cache.ticket? (c.key d) = none)
      (body : ExpandsAll c (chain ++ [d.name]) {} d.calls
        { t with cache := (t.cache.claim (c.key d)).1 } (.ok r) u)
      (ran : (c.execute ⟨rewritten d r, arguments, site⟩ world).outcome = .error e) :
      Expands c chain d site arguments t (.error (ofRunError (rewritten d r) e))
        ⟨u.cache.release (c.key d), u.runs ++ [⟨rewritten d r, arguments, site⟩]⟩
  /-- The macro is run and its result is stored. -/
  | runs {chain : List String} {d : Definition} {site : CallSite} {arguments : Text} {t u : Trail}
      {r : Rewriting} {world : σ} {text : Text} (isNew : d.name ∉ chain)
      (absent : t.cache.get? (c.key d) = none) (free : t.cache.ticket? (c.key d) = none)
      (body : ExpandsAll c (chain ++ [d.name]) {} d.calls
        { t with cache := (t.cache.claim (c.key d)).1 } (.ok r) u)
      (ran : (c.execute ⟨rewritten d r, arguments, site⟩ world).outcome = .ok text) :
      Expands c chain d site arguments t (.ok (u.cache.settle (c.key d) text).2)
        ⟨(u.cache.settle (c.key d) text).1, u.runs ++ [⟨rewritten d r, arguments, site⟩]⟩

/-- How replacing calls one after another ends. -/
inductive ExpandsAll (c : Context σ) : List String → Rewriting → List CallSite → Trail →
    Except PassError Rewriting → Trail → Prop where
  | done {chain : List String} {r : Rewriting} {t : Trail} : ExpandsAll c chain r [] t (.ok r) t
  | skips {chain : List String} {r : Rewriting} {site : CallSite} {rest : List CallSite} {t u : Trail}
      {result : Except PassError Rewriting} (unknown : c.scan.definition? site.name = none)
      (next : ExpandsAll c chain r rest t result u) : ExpandsAll c chain r (site :: rest) t result u
  /-- The arguments cannot be written. -/
  | stops {chain : List String} {r : Rewriting} {site : CallSite} {rest : List CallSite} {t : Trail}
      {d : Definition} {e : EditError} (known : c.scan.definition? site.name = some d)
      (unwritten : c.source.splice r.edits (some (site.argsSpan.start, site.argsSpan.stop)) =
        .error e) :
      ExpandsAll c chain r (site :: rest) t (.error (.emit (.edit e))) t
  /-- There is no result. -/
  | fails {chain : List String} {r : Rewriting} {site : CallSite} {rest : List CallSite} {t u : Trail}
      {d : Definition} {arguments : Text} {e : PassError}
      (known : c.scan.definition? site.name = some d)
      (written : c.source.splice r.edits (some (site.argsSpan.start, site.argsSpan.stop)) =
        .ok arguments)
      (call : Expands c chain d site arguments t (.error e) u) :
      ExpandsAll c chain r (site :: rest) t (.error e) u
  /-- The result cannot take the place of the call. -/
  | refuses {chain : List String} {r : Rewriting} {site : CallSite} {rest : List CallSite} {t u : Trail}
      {d : Definition} {arguments text : Text} {e : ExpansionError}
      (known : c.scan.definition? site.name = some d)
      (written : c.source.splice r.edits (some (site.argsSpan.start, site.argsSpan.stop)) =
        .ok arguments)
      (call : Expands c chain d site arguments t (.ok text) u) (refused : r.expand site text = .error e) :
      ExpandsAll c chain r (site :: rest) t (.error (.expansion e)) u
  | replaces {chain : List String} {r r' : Rewriting} {site : CallSite} {rest : List CallSite}
      {t u v : Trail} {d : Definition} {arguments text : Text} {edit : Edit}
      {result : Except PassError Rewriting} (known : c.scan.definition? site.name = some d)
      (written : c.source.splice r.edits (some (site.argsSpan.start, site.argsSpan.stop)) =
        .ok arguments)
      (call : Expands c chain d site arguments t (.ok text) u)
      (replaced : r.expand site text = .ok (r', edit)) (next : ExpandsAll c chain r' rest u result v) :
      ExpandsAll c chain r (site :: rest) t result v

end

/-! ## Passes follow these ways -/

@[simp] theorem outcome_report (entries : List LogEntry) (s : PassState σ) :
    (report entries : PassM σ Unit).outcome s = (.ok (), { s with log := s.log ++ entries }) := rfl

@[simp] theorem outcome_reportDebug (area : LogArea) (parts : List Text) (s : PassState σ) :
    (reportDebug area parts : PassM σ Unit).outcome s =
      (.ok (), { s with log := s.log ++ [⟨.debug, area, parts.flatten⟩] }) := rfl

theorem outcome_emitOrFail (tree : Tree) (source : Text) (edits : List Edit) (options : EmitOptions)
    (s : PassState σ) : (emitOrFail tree source edits options : PassM σ Emitted).outcome s =
      ((emit tree source edits options).mapError .emit, s) := by
  unfold emitOrFail
  cases emit tree source edits options <;> rfl

theorem outcome_get (s : PassState σ) : (get : PassM σ (PassState σ)).outcome s = (.ok s, s) := rfl

theorem outcome_modify (f : PassState σ → PassState σ) (s : PassState σ) :
    (modify f : PassM σ Unit).outcome s = (.ok (), f s) := rfl

theorem outcome_set (t s : PassState σ) : (set t : PassM σ Unit).outcome s = (.ok (), t) := rfl

theorem outcome_run (c : Context σ) (call : Invocation) (s : PassState σ) :
    (run c call).outcome s = ((c.execute call s.world).outcome.mapError (ofRunError call.definition),
      { s with
        runs := s.runs ++ [call]
        world := (c.execute call s.world).world
        log := s.log ++ [⟨.debug, .pass, [chars "Executing macro ", call.definition.name.toList,
          chars " from ", call.definition.path].flatten⟩] ++ (c.execute call s.world).log }) := by
  rw [run, PassM.outcome_bind_ok (outcome_reportDebug ..), PassM.outcome_bind_ok (outcome_modify ..),
    PassM.outcome_bind_ok (outcome_get _), PassM.outcome_bind_ok (outcome_set ..)]
  cases ended : (c.execute call s.world).outcome <;> rfl

section Cached

variable {key : CacheKey} {s t : PassState σ} {text : Text} {compute : PassM σ Text}

theorem outcome_cached_hit (found : s.cache.get? key = some text) :
    ∃ log, (cached key compute).outcome s = (.ok text, { s with log }) := by
  have claimed : s.cache.claim key = (s.cache, .hit text) := by simp [Cache.claim, found]
  rw [cached, PassM.outcome_bind_ok (outcome_get s), claimed]
  exact ⟨_, rfl⟩

theorem outcome_cached_waits {ticket : Nat} (absent : s.cache.get? key = none)
    (busy : s.cache.ticket? key = some ticket) :
    ∃ log, (cached key compute).outcome s = (.error (.waiting ticket), { s with log }) := by
  have claimed : s.cache.claim key = (s.cache, .wait ticket) := by simp [Cache.claim, absent, busy]
  rw [cached, PassM.outcome_bind_ok (outcome_get s), claimed]
  exact ⟨_, rfl⟩

theorem outcome_cached_fails {e : PassError} (absent : s.cache.get? key = none)
    (free : s.cache.ticket? key = none)
    (ended : compute.outcome { s with cache := (s.cache.claim key).1 } = (.error e, t)) :
    (cached key compute).outcome s = (.error e, { t with cache := t.cache.release key }) := by
  have claimed : (s.cache.claim key).2 = .own s.cache.issued := by simp [Cache.claim, absent, free]
  rw [cached, PassM.outcome_bind_ok (outcome_get s)]
  dsimp only
  rw [claimed, PassM.outcome_bind_ok (outcome_set _ s)]
  refine PassM.outcome_bind_error ?_ _
  rw [PassM.outcome_tryCatch, ended]
  rfl

theorem outcome_cached_ok (absent : s.cache.get? key = none) (free : s.cache.ticket? key = none)
    (ended : compute.outcome { s with cache := (s.cache.claim key).1 } = (.ok text, t)) :
    ∃ log, (cached key compute).outcome s =
      (.ok (t.cache.settle key text).2, { t with cache := (t.cache.settle key text).1, log }) := by
  have claimed : (s.cache.claim key).2 = .own s.cache.issued := by simp [Cache.claim, absent, free]
  rw [cached, PassM.outcome_bind_ok (outcome_get s)]
  dsimp only
  rw [claimed, PassM.outcome_bind_ok (outcome_set _ s), PassM.outcome_bind, PassM.outcome_tryCatch,
    ended]
  exact ⟨_, rfl⟩

end Cached

theorem outcome_expandSites_cons (result : Definition → CallSite → Text → PassM σ Text) (r : Rewriting)
    (site : CallSite) (rest : List CallSite) (s : PassState σ) :
    (expandSites c result r (site :: rest)).outcome s =
      match c.scan.definition? site.name with
      | none => (expandSites c result r rest).outcome s
      | some d =>
        match c.source.splice r.edits (some (site.argsSpan.start, site.argsSpan.stop)) with
        | .error e => (.error (.emit (.edit e)), s)
        | .ok arguments =>
          match (result d site arguments).outcome s with
          | (.error e, t) => (.error e, t)
          | (.ok text, t) =>
            match r.expand site text with
            | .error e => (.error (.expansion e), t)
            | .ok (r', _) =>
              (expandSites c result r' rest).outcome { t with log := t.log ++ [Rewriting.entry site] } := by
  rw [expandSites]
  cases c.scan.definition? site.name with
  | none => rfl
  | some d =>
    dsimp only
    unfold argumentsOf
    cases c.source.splice r.edits (some (site.argsSpan.start, site.argsSpan.stop)) with
    | error e => exact PassM.outcome_bind_error (PassM.outcome_throw _ s) _
    | ok arguments =>
      rw [PassM.outcome_bind_ok (PassM.outcome_pure arguments s), PassM.outcome_bind]
      dsimp only
      rcases (result d site arguments).outcome s with ⟨e | text, t⟩
      · rfl
      · dsimp only
        rw [PassM.outcome_bind, replace]
        cases r.expand site text <;> rfl

/-- Replacing calls follows the ways above if getting their results does. -/
theorem expandSites_expands {result : Definition → CallSite → Text → PassM σ Text}
    {chain : List String} (sound : ∀ d site arguments s, Expands c chain d site arguments s.trail
      ((result d site arguments).outcome s).1 ((result d site arguments).outcome s).2.trail)
    (sites : List CallSite) (r : Rewriting) (s : PassState σ) :
    ExpandsAll c chain r sites s.trail ((expandSites c result r sites).outcome s).1
      ((expandSites c result r sites).outcome s).2.trail := by
  induction sites generalizing r s with
  | nil => exact .done
  | cons site rest ih =>
    rw [outcome_expandSites_cons]
    cases known : c.scan.definition? site.name with
    | none => exact .skips known (ih r s)
    | some d =>
      dsimp only
      cases written : c.source.splice r.edits (some (site.argsSpan.start, site.argsSpan.stop)) with
      | error e => exact .stops known written
      | ok arguments =>
        have call := sound d site arguments s
        dsimp only
        rcases ended : (result d site arguments).outcome s with ⟨e | text, t⟩
        · rw [ended] at call
          exact .fails known written call
        · rw [ended] at call
          dsimp only
          cases replaced : r.expand site text with
          | error e => exact .refuses known written call replaced
          | ok pair =>
            obtain ⟨r', edit⟩ := pair
            have next := ih r' { t with log := t.log ++ [Rewriting.entry site] }
            exact .replaces known written call replaced next

theorem expandBody_expands {result : Definition → CallSite → Text → PassM σ Text}
    {chain : List String} (sound : ∀ d site arguments s, Expands c chain d site arguments s.trail
      ((result d site arguments).outcome s).1 ((result d site arguments).outcome s).2.trail)
    (d : Definition) (s : PassState σ) :
    ∃ ended, ExpandsAll c chain {} d.calls s.trail ended ((expandBody c result d).outcome s).2.trail ∧
      ((expandBody c result d).outcome s).1 = ended.map (rewritten d) := by
  rw [expandBody]
  split
  · rename_i noCalls
    refine ⟨.ok {}, ?_, ?_⟩
    · rw [List.isEmpty_iff.mp noCalls]
      exact .done
    · have same : Rewriting.apply [] d.tree = d.tree :=
        @Plan.apply_untouched ⟨[], ⟨[], []⟩⟩ _ fun _ _ => rfl
      simp [Except.map, rewritten, same]
  · have all := expandSites_expands sound d.calls {} s
    rcases ended : (expandSites c result {} d.calls).outcome s with ⟨e | r, t⟩
    · rw [ended] at all
      rw [PassM.outcome_bind_error ended]
      exact ⟨.error e, all, rfl⟩
    · rw [ended] at all
      rw [PassM.outcome_bind_ok ended]
      exact ⟨.ok r, all, rfl⟩

theorem ran_expands {chain : List String} {d : Definition} {site : CallSite} {arguments : Text}
    {body : PassM σ Definition} {r : Rewriting} {s t : PassState σ} (isNew : d.name ∉ chain)
    (absent : s.cache.get? (c.key d) = none) (free : s.cache.ticket? (c.key d) = none)
    (all : ExpandsAll c (chain ++ [d.name]) {} d.calls
      ⟨(s.trail.cache.claim (c.key d)).1, s.trail.runs⟩ (.ok r) t.trail)
    (ready : body.outcome { s with cache := (s.cache.claim (c.key d)).1 } = (.ok (rewritten d r), t)) :
    let step := cached (c.key d) do
      let ready ← body
      run c ⟨ready, arguments, site⟩
    Expands c chain d site arguments s.trail (step.outcome s).1 (step.outcome s).2.trail := by
  intro step
  rcases ended : (run c ⟨rewritten d r, arguments, site⟩).outcome t with ⟨result, u⟩
  have same := congrArg Prod.fst (outcome_run c ⟨rewritten d r, arguments, site⟩ t)
  have trail := congrArg (fun ended => ended.2.trail) (outcome_run c ⟨rewritten d r, arguments, site⟩ t)
  rw [ended] at trail same
  change u.trail = ⟨t.cache, t.runs ++ _⟩ at trail
  dsimp only at same
  have computed := (PassM.outcome_bind_ok ready fun ready => run c ⟨ready, arguments, site⟩).trans ended
  cases outcome : (c.execute ⟨rewritten d r, arguments, site⟩ t.world).outcome with
  | error e =>
    rw [outcome] at same
    obtain rfl : result = _ := same
    have failed : step.outcome s = (_, { u with cache := u.cache.release (c.key d) }) :=
      outcome_cached_fails absent free computed
    have left : PassState.trail { u with cache := u.cache.release (c.key d) } =
        ⟨u.trail.cache.release (c.key d), u.trail.runs⟩ := rfl
    rw [failed, left, trail]
    exact .breaks (t := s.trail) (u := t.trail) isNew absent free all outcome
  | ok text =>
    rw [outcome] at same
    obtain rfl : result = _ := same
    obtain ⟨log, stored⟩ : ∃ log, step.outcome s = _ := outcome_cached_ok absent free computed
    have left : PassState.trail { u with cache := (u.cache.settle (c.key d) text).1, log } =
        ⟨(u.trail.cache.settle (c.key d) text).1, u.trail.runs⟩ := rfl
    have kept : u.cache = t.cache := congrArg Trail.cache trail
    rw [stored, left, trail, kept]
    exact .runs (t := s.trail) (u := t.trail) isNew absent free all outcome

/-- A macro is run unless its result is stored, if the calls in it can be expanded. -/
theorem cached_expands {chain : List String} {d : Definition} {site : CallSite} {arguments : Text}
    {body : PassM σ Definition} (isNew : d.name ∉ chain)
    (sound : ∀ s, ∃ ended, ExpandsAll c (chain ++ [d.name]) {} d.calls s.trail ended
      (body.outcome s).2.trail ∧ (body.outcome s).1 = ended.map (rewritten d))
    (s : PassState σ) :
    let step := cached (c.key d) do
      let ready ← body
      run c ⟨ready, arguments, site⟩
    Expands c chain d site arguments s.trail (step.outcome s).1 (step.outcome s).2.trail := by
  intro step
  cases found : s.cache.get? (c.key d) with
  | some text =>
    obtain ⟨log, ended⟩ : ∃ log, step.outcome s = (.ok text, { s with log }) :=
      outcome_cached_hit found
    rw [ended]
    exact .hit isNew found
  | none =>
    cases busy : s.cache.ticket? (c.key d) with
    | some ticket =>
      obtain ⟨log, ended⟩ : ∃ log, step.outcome s = (.error (.waiting ticket), { s with log }) :=
        outcome_cached_waits found busy
      rw [ended]
      exact .waits isNew found busy
    | none =>
      obtain ⟨ended, all, same⟩ := sound { s with cache := (s.cache.claim (c.key d)).1 }
      rcases ready : body.outcome { s with cache := (s.cache.claim (c.key d)).1 } with ⟨result, t⟩
      rw [ready] at all same
      obtain rfl : result = ended.map (rewritten d) := same
      cases ended with
      | error e =>
        have failed : step.outcome s = (.error e, { t with cache := t.cache.release (c.key d) }) :=
          outcome_cached_fails found busy (PassM.outcome_bind_error ready _)
        rw [failed]
        exact .fails (t := s.trail) (u := t.trail) isNew found busy all
      | ok r => exact ran_expands isNew found busy all ready

theorem expandMacro_expands (c : Context σ) (free : Nat) (chain : List String) (d : Definition)
    (site : CallSite) (arguments : Text) (s : PassState σ)
    (counted : free + chain.length = c.scan.definitions.length) :
    Expands c chain d site arguments s.trail ((expandMacro c free chain d site arguments).outcome s).1
      ((expandMacro c free chain d site arguments).outcome s).2.trail := by
  induction free generalizing chain d site arguments s with
  | zero =>
    unfold expandMacro
    split
    · rename_i again
      exact .cycle (.inl (List.contains_iff_mem.mp again))
    · exact .cycle (.inr (by omega))
  | succ free ih =>
    unfold expandMacro
    split
    · rename_i again
      exact .cycle (.inl (List.contains_iff_mem.mp again))
    · rename_i isNew
      have isNew : d.name ∉ chain := fun again => isNew (List.contains_iff_mem.mpr again)
      have shorter : free + (chain ++ [d.name]).length = c.scan.definitions.length := by
        rw [List.length_append, List.length_singleton]
        omega
      refine cached_expands isNew (expandBody_expands (fun d' site' arguments' s' => ?_) d) s
      exact ih (chain ++ [d.name]) d' site' arguments' s' shorter

/-! ## Whole files -/

/-- What comes of a file after its calls are replaced. -/
def finish (c : Context σ) (path : Text) (tree : Tree) (r : Rewriting) : Except PassError Expanded :=
  let removal := (Removal.Context.of c.scan.definitions c.lines).strip
    (Rewriting.apply r.expansions tree)
  match emit removal.kept c.source (r.edits ++ removal.edits) (emitOptions c.settings path) with
  | .ok emitted => .ok ⟨emitted, c.scan.names⟩
  | .error e => .error (.emit e)

def unchanged (settings : Settings) (source path : Text) (tree : Tree) : Except PassError Expanded :=
  match emit tree source [] { emitOptions settings path with retainLines := true, provenance := false } with
  | .ok emitted => .ok ⟨emitted, []⟩
  | .error e => .error (.emit e)

/-- The tree of a file and what a scan finds in it. -/
def scanned (settings : Settings) (source path : Text) : Except PassError (Tree × Scan) :=
  match parseModule source (settings.typeCommentsFor path) with
  | .error fault => .error (.fault fault)
  | .ok tree => match (scanTree path settings.directive source.lines tree).2 with
    | .error e => .error (.scan e)
    | .ok scan => .ok (tree, scan)

theorem finish_error {path : Text} {tree : Tree} {r : Rewriting} {e : PassError}
    (failed : finish c path tree r = .error e) : ∃ f, e = .emit f := by
  unfold finish at failed
  dsimp only at failed
  split at failed
  · cases failed
  · cases failed
    exact ⟨_, rfl⟩

theorem unchanged_error {settings : Settings} {source path : Text} {tree : Tree} {e : PassError}
    (failed : unchanged settings source path tree = .error e) : ∃ f, e = .emit f := by
  unfold unchanged at failed
  split at failed
  · cases failed
  · cases failed
    exact ⟨_, rfl⟩

theorem scanned_error {settings : Settings} {source path : Text} {e : PassError}
    (failed : scanned settings source path = .error e) : (∃ f, e = .fault f) ∨ ∃ f, e = .scan f := by
  unfold scanned at failed
  split at failed
  · cases failed
    exact .inl ⟨_, rfl⟩
  · split at failed
    · cases failed
      exact .inr ⟨_, rfl⟩
    · cases failed

theorem expandFile_outcome (c : Context σ) (path : Text) (tree : Tree) (s : PassState σ) :
    let replaced := (expandSites c (expandMacro c c.scan.definitions.length []) {} c.scan.sites).outcome s
    ((expandFile c path tree).outcome s).1 = replaced.1.bind (finish c path tree) ∧
      ((expandFile c path tree).outcome s).2.trail = replaced.2.trail := by
  intro replaced
  have opened : replaced = (expandSites c (expandMacro c c.scan.definitions.length []) {}
    c.scan.sites).outcome s := rfl
  rcases replaced with ⟨e | r, t⟩
  · rw [expandFile, PassM.outcome_bind_error opened.symm]
    exact ⟨rfl, rfl⟩
  · rw [expandFile, PassM.outcome_bind_ok opened.symm, PassM.outcome_bind_ok (outcome_report _ _)]
    change _ = finish c path tree r ∧ _
    rw [PassM.outcome_bind, outcome_emitOrFail, finish]
    cases emit _ c.source _ _ with
    | error e => exact ⟨rfl, rfl⟩
    | ok emitted => exact ⟨rfl, rfl⟩

theorem expandFile_expands (c : Context σ) (path : Text) (tree : Tree) (s : PassState σ) :
    ∃ ended, ExpandsAll c [] {} c.scan.sites s.trail ended
        ((expandFile c path tree).outcome s).2.trail ∧
      ((expandFile c path tree).outcome s).1 = ended.bind (finish c path tree) := by
  have all := expandSites_expands (fun d site arguments s =>
    expandMacro_expands c c.scan.definitions.length [] d site arguments s rfl) c.scan.sites {} s
  obtain ⟨result, trail⟩ := expandFile_outcome c path tree s
  exact ⟨_, trail ▸ all, result⟩

/-- The state after a file is scanned: only the log is changed. -/
def scannedState (settings : Settings) (source path : Text) (s : PassState σ) : PassState σ :=
  match parseModule source (settings.typeCommentsFor path) with
  | .error _ => s
  | .ok tree => { s with log := s.log ++ (scanTree path settings.directive source.lines tree).1 }

@[simp] theorem trail_scannedState (settings : Settings) (source path : Text) (s : PassState σ) :
    (scannedState settings source path s).trail = s.trail := by
  unfold scannedState
  split <;> rfl

theorem outcome_expandMacros (settings : Settings) (execute : Executor σ) (source path : Text) (s : PassState σ) :
    (expandMacros settings execute source path).outcome s =
      match scanned settings source path with
      | .error e => (.error e, scannedState settings source path s)
      | .ok (tree, scan) =>
        if scan.definitions.isEmpty then
          (reportDebug .pass [chars "No macros in ", path] >>= fun _ =>
            match unchanged settings source path tree with
            | .ok expanded => pure expanded
            | .error e => throw e : PassM σ Expanded).outcome (scannedState settings source path s)
        else
          (expandFile ⟨settings, execute, source, source.lines, scan⟩ path tree).outcome
            (scannedState settings source path s) := by
  unfold scanned scannedState
  rw [expandMacros]
  cases parseModule source (settings.typeCommentsFor path) with
  | error fault => exact PassM.outcome_bind_error (PassM.outcome_throw _ s) _
  | ok tree =>
    rw [PassM.outcome_bind_ok (PassM.outcome_pure tree s)]
    dsimp only
    rw [PassM.outcome_bind_ok (outcome_report _ _)]
    cases (scanTree path settings.directive source.lines tree).2 with
    | error e => rfl
    | ok scan =>
      dsimp only
      split
      · rw [PassM.outcome_bind_ok (outcome_reportDebug _ _ _), PassM.outcome_bind_ok (outcome_reportDebug _ _ _),
          PassM.outcome_bind, outcome_emitOrFail, unchanged]
        cases emit tree source [] _ <;> rfl
      · rfl

/-- A pass fails before anything runs, or the file has no macros, or its calls are replaced one after
another. -/
theorem expandMacros_expands (settings : Settings) (execute : Executor σ) (source path : Text)
    (s : PassState σ) :
    let ended := (expandMacros settings execute source path).outcome s
    match scanned settings source path with
    | .error e => ended.1 = .error e ∧ ended.2.trail = s.trail
    | .ok (tree, scan) =>
      (scan.definitions = [] ∧ ended.1 = unchanged settings source path tree ∧
        ended.2.trail = s.trail) ∨
      (scan.definitions ≠ [] ∧
        let c : Context σ := ⟨settings, execute, source, source.lines, scan⟩
        ∃ replaced, ExpandsAll c [] {} scan.sites s.trail replaced ended.2.trail ∧
          ended.1 = replaced.bind (finish c path tree)) := by
  intro ended
  have opened : ended = _ := outcome_expandMacros settings execute source path s
  cases isScanned : scanned settings source path with
  | error e =>
    rw [isScanned] at opened
    rw [opened]
    exact ⟨rfl, trail_scannedState settings source path s⟩
  | ok file =>
    obtain ⟨tree, scan⟩ := file
    rw [isScanned] at opened
    dsimp only at opened ⊢
    split at opened
    · rename_i noMacros
      refine .inl ⟨List.isEmpty_iff.mp noMacros, ?_⟩
      rw [PassM.outcome_bind_ok (outcome_reportDebug _ _ _)] at opened
      rw [opened]
      cases unchanged settings source path tree <;>
        exact ⟨rfl, trail_scannedState settings source path s⟩
    · rename_i macros
      refine .inr ⟨fun noMacros => macros (List.isEmpty_iff.mpr noMacros), ?_⟩
      have file := expandFile_expands ⟨settings, execute, source, source.lines, scan⟩ path tree
        (scannedState settings source path s)
      rw [trail_scannedState] at file
      rw [opened]
      exact file

end Pass

/-! ## Edits in order -/

namespace PlacedEdit

/-- Edits can be sorted one by one: edits of the same span keep their order. -/
theorem mergeSort_eq_insertionSort (edits : List PlacedEdit) :
    edits.mergeSort precedes = edits.insertionSort fun a b => a.precedes b = true := by
  induction edits with
  | nil => rw [List.mergeSort_nil, List.insertionSort_nil]
  | cons e rest ih =>
    obtain ⟨before, behind, sorted, same, follows⟩ := List.mergeSort_cons precedes_trans precedes_total e rest
    have inOrder := List.pairwise_mergeSort precedes_trans precedes_total (e :: rest)
    rw [sorted, List.pairwise_append, List.pairwise_cons] at inOrder
    have front : ∀ b ∈ before, decide (¬ e.precedes b = true) = true := by simpa using follows
    have rest : behind.takeWhile (fun b => decide (¬ e.precedes b = true)) = [] ∧
        behind.dropWhile (fun b => decide (¬ e.precedes b = true)) = behind := by
      cases behind with
      | nil => exact ⟨rfl, rfl⟩
      | cons b behind =>
        have first := inOrder.2.1.1 b (.head _)
        exact ⟨by simp [first], by simp [first]⟩
    rw [List.insertionSort_cons_eq_take_drop, ← ih, same, sorted, List.takeWhile_append_of_pos front,
      List.dropWhile_append_of_pos front, rest.1, rest.2, List.append_nil]

end PlacedEdit

def Edit.inOrder (starts : List Nat) (edits : List Edit) : Except EditError (List PlacedEdit) :=
  (edits.mapM (place starts)).bind fun placed =>
    PlacedEdit.sweep none (placed.insertionSort fun a b => a.precedes b = true)

theorem Edit.outermost_eq_inOrder (starts : List Nat) (edits : List Edit) : outermost starts edits = inOrder starts edits := by
  unfold outermost inOrder
  simp only [PlacedEdit.mergeSort_eq_insertionSort]
  rfl

def Text.spliceInOrder (text : Text) (edits : List Edit) (lo hi : Int) : Except EditError Text :=
  (Edit.inOrder text.lineStarts edits).map fun kept =>
    PlacedEdit.write text lo hi (kept.filter fun e => lo ≤ e.start && e.stop ≤ hi)

theorem Text.splice_eq_spliceInOrder (text : Text) (edits : List Edit) :
    text.splice edits = text.spliceInOrder edits 0 text.length := by
  unfold splice spliceInOrder
  simp only [Edit.outermost_eq_inOrder]
  rfl

def Emit.codeInOrder (source : Text) (edits : List Edit) (options : EmitOptions) : Except EmitError Text := do
  let kept ← EmitError.orEdit (Edit.inOrder source.lineStarts edits)
  EmitError.orEdit (checkLines source kept)
  let keptEdits := kept.map PlacedEdit.edit
  let code ← EmitError.orEdit (source.spliceInOrder keptEdits 0 source.length)
  if options.provenance then annotate code source keptEdits options.provenanceTag else pure code

theorem emit_code {options : EmitOptions} (retained : options.retainLines = true) (tree : Tree) (source : Text)
    (edits : List Edit) : (emit tree source edits options).map Emitted.code = Emit.codeInOrder source edits options := by
  unfold emit Emit.codeInOrder
  simp only [retained, if_true, Edit.outermost_eq_inOrder, Text.splice_eq_spliceInOrder]
  cases EmitError.orEdit (Edit.inOrder source.lineStarts edits) with
  | error e => rfl
  | ok kept =>
    dsimp only [bind, Except.bind]
    cases EmitError.orEdit (Emit.checkLines source kept) with
    | error e => rfl
    | ok =>
      dsimp only
      cases EmitError.orEdit (source.spliceInOrder (kept.map PlacedEdit.edit) 0 source.length) with
      | error e => rfl
      | ok code =>
        dsimp only
        split
        · cases Emit.annotate code source (kept.map PlacedEdit.edit) options.provenanceTag <;> rfl
        · rfl

namespace Pass

variable {σ : Type}

def codeInOrder (settings : Settings) (execute : Executor σ) (source path : Text) (s : PassState σ) :
    Except PassError Text :=
  match scanned settings source path with
  | .error e => .error e
  | .ok (tree, scan) =>
    if scan.definitions.isEmpty then (unchanged settings source path tree).map fun expanded => expanded.emitted.code
    else
      let c : Context σ := ⟨settings, execute, source, source.lines, scan⟩
      let replaced := (expandSites c (expandMacro c scan.definitions.length []) {} scan.sites).outcome
        (scannedState settings source path s)
      replaced.1.bind fun r =>
        let removal := (Removal.Context.of scan.definitions source.lines).strip (Rewriting.apply r.expansions tree)
        (Emit.codeInOrder source (r.edits ++ removal.edits) (emitOptions settings path)).mapError .emit

theorem finish_code {c : Context σ} (retained : c.settings.retainLines = true) (path : Text) (tree : Tree)
    (r : Rewriting) : (finish c path tree r).map (fun expanded => expanded.emitted.code) =
      (Emit.codeInOrder c.source (r.edits ++ ((Removal.Context.of c.scan.definitions c.lines).strip
        (Rewriting.apply r.expansions tree)).edits) (emitOptions c.settings path)).mapError PassError.emit := by
  unfold finish
  dsimp only
  rw [← emit_code retained ((Removal.Context.of c.scan.definitions c.lines).strip
    (Rewriting.apply r.expansions tree)).kept]
  cases emit _ c.source _ _ <;> rfl

theorem expandMacros_code {settings : Settings} (retained : settings.retainLines = true) (execute : Executor σ)
    (source path : Text) (s : PassState σ) :
    ((expandMacros settings execute source path).outcome s).1.map (fun expanded => expanded.emitted.code) =
      codeInOrder settings execute source path s := by
  rw [outcome_expandMacros, codeInOrder]
  cases scanned settings source path with
  | error e => rfl
  | ok file =>
    obtain ⟨tree, scan⟩ := file
    dsimp only
    split
    · rw [PassM.outcome_bind_ok (outcome_reportDebug _ _ _)]
      cases unchanged settings source path tree <;> rfl
    · rw [(expandFile_outcome _ path tree _).1]
      dsimp only
      cases ((expandSites _ _ _ _).outcome _).1 with
      | error e => rfl
      | ok r => exact finish_code (c := ⟨settings, execute, source, source.lines, scan⟩) retained path tree r

end Pass

end MacroExpand
