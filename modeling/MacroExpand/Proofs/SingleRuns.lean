import MacroExpand.Proofs.Finding
import MacroExpand.Proofs.Passes

/-!
# Every macro runs once

A pass runs a macro only if its key has no result and is not being computed.  What it has run before it
reaches a step is stored by then, so no key is computed twice, and calls are always replaced by stored
results: with these in place, another pass over the same file runs nothing and comes to the same end.
-/

set_option autoImplicit false

namespace MacroExpand

/-! ## The cache while a key is computed -/

namespace Cache

variable {κ α : Type} [DecidableEq κ] {cache : Cache κ α} {key key' : κ}

@[simp] theorem get?_claim (cache : Cache κ α) (key key' : κ) :
    (cache.claim key).1.get? key' = cache.get? key' := by
  unfold claim
  split <;> rfl

theorem ticket?_claim (absent : cache.get? key = none) (free : cache.ticket? key = none) :
    (cache.claim key).1.ticket? key' = none ↔ cache.ticket? key' = none ∧ key' ≠ key := by
  have claimed : (cache.claim key).1.inflight = cache.inflight ++ [(key, cache.issued)] := by
    simp [claim, absent, free]
  rw [ticket?_eq_none, ticket?_eq_none, claimed]
  simp

theorem release_claim {after : Cache κ α} (absent : cache.get? key = none)
    (free : cache.ticket? key = none) (same : after.inflight = (cache.claim key).1.inflight) :
    (after.release key).inflight = cache.inflight := by
  have claimed : (cache.claim key).1.inflight = cache.inflight ++ [(key, cache.issued)] := by
    simp [claim, absent, free]
  rw [ticket?_eq_none] at free
  have others : ∀ entry ∈ cache.inflight, entry.1 ≠ key :=
    fun entry member same => free (List.mem_map.mpr ⟨entry, member, same⟩)
  simpa [release, same, claimed, List.filter_append] using others

end Cache

namespace Pass

variable {σ : Type} {c : Context σ}

/-! ## Calls replaced by stored results -/

/-- Calls are replaced one after another by results that are stored. -/
inductive Replays (c : Context σ) (cache : Cache CacheKey Text) :
    Rewriting → List CallSite → Rewriting → Prop where
  | done {r : Rewriting} : Replays c cache r [] r
  | skips {r r' : Rewriting} {site : CallSite} {rest : List CallSite}
      (unknown : c.scan.definition? site.name = none) (next : Replays c cache r rest r') :
      Replays c cache r (site :: rest) r'
  | replaces {r r' r'' : Rewriting} {site : CallSite} {rest : List CallSite} {d : Definition}
      {arguments text : Text} {edit : Edit} (known : c.scan.definition? site.name = some d)
      (written : c.source.splice r.edits (some (site.argsSpan.start, site.argsSpan.stop)) =
        .ok arguments)
      (stored : cache.get? (c.key d) = some text) (replaced : r.expand site text = .ok (r', edit))
      (next : Replays c cache r' rest r'') : Replays c cache r (site :: rest) r''

theorem Replays.mono {cache cache' : Cache CacheKey Text} {r r' : Rewriting} {sites : List CallSite}
    (keeps : ∀ key text, cache.get? key = some text → cache'.get? key = some text)
    (replays : Replays c cache r sites r') : Replays c cache' r sites r' := by
  induction replays with
  | done => exact .done
  | skips unknown _ ih => exact .skips unknown ih
  | replaces known written stored replaced _ ih =>
    exact .replaces known written (keeps _ _ stored) replaced ih

def Context.RunOf (c : Context σ) (cache : Cache CacheKey Text) (may : String → Prop)
    (call : Invocation) : Prop :=
  ∃ d ∈ c.scan.definitions, may d.name ∧
    ∃ r, Replays c cache {} d.calls r ∧ call.definition = rewritten d r

theorem reaches_of_call {d : Definition} (isDefinition : d ∈ c.scan.definitions) (name : String)
    (reached : ∃ site ∈ d.calls, c.scan.Reaches site.name name) : c.scan.Reaches d.name name := by
  obtain ⟨site, member, reached⟩ := reached
  exact .head ⟨d, isDefinition, rfl, site, member, rfl⟩ reached

theorem reached_now {site : CallSite} {rest : List CallSite} {d : Definition} {name : String}
    (known : c.scan.definition? site.name = some d) (reached : c.scan.Reaches d.name name) :
    ∃ site' ∈ site :: rest, c.scan.Reaches site'.name name :=
  ⟨site, .head _, (Scan.definition?_eq_some known).2 ▸ reached⟩

theorem reached_later {site : CallSite} {rest : List CallSite} {name : String}
    (reached : ∃ site' ∈ rest, c.scan.Reaches site'.name name) :
    ∃ site' ∈ site :: rest, c.scan.Reaches site'.name name := by
  obtain ⟨site', member, reached⟩ := reached
  exact ⟨site', .tail _ member, reached⟩

/-! ## What parts of a pass add -/

/-- What part of a pass adds: runs of macros that have no result and are not being computed. -/
structure Adds (c : Context σ) (may : String → Prop) (t u : Trail) (new : List Invocation) : Prop where
  runs : u.runs = t.runs ++ new
  inflight : u.cache.inflight = t.cache.inflight
  keeps : ∀ key text, t.cache.get? key = some text → u.cache.get? key = some text
  distinct : (new.map fun call => c.key call.definition).Nodup
  fresh : ∀ call ∈ new, t.cache.get? (c.key call.definition) = none ∧
    t.cache.ticket? (c.key call.definition) = none
  macros : ∀ call ∈ new, c.RunOf u.cache may call

def Stores (c : Context σ) (u : Trail) (new : List Invocation) : Prop :=
  ∀ call ∈ new, ∃ text, u.cache.get? (c.key call.definition) = some text

namespace Adds

variable {may may' : String → Prop} {t u v : Trail} {new new' : List Invocation}

theorem nil (c : Context σ) (may : String → Prop) (t : Trail) : Adds c may t t [] :=
  ⟨by simp, rfl, fun _ _ found => found, List.nodup_nil, by simp, by simp⟩

theorem ticket? (adds : Adds c may t u new) (key : CacheKey) :
    u.cache.ticket? key = t.cache.ticket? key := by
  rw [Cache.ticket?, Cache.ticket?, adds.inflight]

theorem weaken (adds : Adds c may t u new) (wider : ∀ name, may name → may' name) :
    Adds c may' t u new where
  runs := adds.runs
  inflight := adds.inflight
  keeps := adds.keeps
  distinct := adds.distinct
  fresh := adds.fresh
  macros call member := by
    obtain ⟨d, isDefinition, allowed, run⟩ := adds.macros call member
    exact ⟨d, isDefinition, wider _ allowed, run⟩

theorem trans (first : Adds c may t u new) (stores : Stores c u new) (second : Adds c may u v new') :
    Adds c may t v (new ++ new') where
  runs := by rw [second.runs, first.runs, List.append_assoc]
  inflight := second.inflight.trans first.inflight
  keeps key text found := second.keeps key text (first.keeps key text found)
  distinct := by
    rw [List.map_append]
    refine first.distinct.append second.distinct fun key before after => ?_
    obtain ⟨call, member, rfl⟩ := List.mem_map.mp before
    obtain ⟨call', member', same⟩ := List.mem_map.mp after
    obtain ⟨text, stored⟩ := stores call member
    have absent := (second.fresh call' member').1
    rw [same, stored] at absent
    cases absent
  fresh call member := by
    rcases List.mem_append.mp member with before | after
    · exact first.fresh call before
    · obtain ⟨absent, free⟩ := second.fresh call after
      refine ⟨?_, (first.ticket? _).symm.trans free⟩
      cases found : t.cache.get? (c.key call.definition) with
      | none => rfl
      | some text =>
        rw [first.keeps _ _ found] at absent
        cases absent
  macros call member := by
    rcases List.mem_append.mp member with before | after
    · obtain ⟨d, isDefinition, allowed, r, replays, same⟩ := first.macros call before
      exact ⟨d, isDefinition, allowed, r, replays.mono second.keeps, same⟩
    · exact second.macros call after

/-- A key is claimed, the calls in its macro are expanded, the macro is run or not, and the key is
released again. -/
theorem close {key : CacheKey} (absent : t.cache.get? key = none) (free : t.cache.ticket? key = none)
    (body : Adds c may { t with cache := (t.cache.claim key).1 } u new) {cache : Cache CacheKey Text}
    (keeps : ∀ key text, u.cache.get? key = some text → cache.get? key = some text)
    (inflight : cache.inflight = u.cache.inflight) (run : Option Invocation)
    (isRun : ∀ call ∈ run, c.key call.definition = key ∧ c.RunOf u.cache may call) :
    Adds c may t ⟨cache.release key, u.runs ++ run.toList⟩ (new ++ run.toList) where
  runs := by rw [body.runs, List.append_assoc]
  inflight := Cache.release_claim absent free (inflight.trans body.inflight)
  keeps key' text found := keeps key' text (body.keeps key' text (by simpa using found))
  distinct := by
    rw [List.map_append]
    refine body.distinct.append (by cases run <;> simp) fun key' before after => ?_
    obtain ⟨call, member, rfl⟩ := List.mem_map.mp before
    obtain ⟨call', member', same⟩ := List.mem_map.mp after
    -- the key itself is being computed while the calls in the macro are expanded
    have free' := (body.fresh call member).2
    have other := ((Cache.ticket?_claim absent free).mp free').2
    exact other (same.symm.trans (isRun call' (Option.mem_toList.mp member')).1)
  fresh call member := by
    rcases List.mem_append.mp member with before | last
    · obtain ⟨absent', free'⟩ := body.fresh call before
      exact ⟨by simpa using absent', ((Cache.ticket?_claim absent free).mp free').1⟩
    · rw [(isRun call (Option.mem_toList.mp last)).1]
      exact ⟨absent, free⟩
  macros call member := by
    have isRunOf : c.RunOf u.cache may call := by
      rcases List.mem_append.mp member with before | last
      · exact body.macros call before
      · exact (isRun call (Option.mem_toList.mp last)).2
    obtain ⟨d, isDefinition, allowed, r, replays, same⟩ := isRunOf
    exact ⟨d, isDefinition, allowed, r, replays.mono keeps, same⟩

theorem abort {key : CacheKey} (absent : t.cache.get? key = none) (free : t.cache.ticket? key = none)
    (body : Adds c may { t with cache := (t.cache.claim key).1 } u new) :
    Adds c may t { u with cache := u.cache.release key } new := by
  have closed := body.close absent free (fun _ _ found => found) rfl none (by simp)
  simpa using closed

theorem run {d : Definition} {r : Rewriting} (absent : t.cache.get? (c.key d) = none)
    (free : t.cache.ticket? (c.key d) = none)
    (body : Adds c may { t with cache := (t.cache.claim (c.key d)).1 } u new)
    (isDefinition : d ∈ c.scan.definitions) (allowed : may d.name)
    (replays : Replays c u.cache {} d.calls r) (arguments : Text) (site : CallSite)
    {cache : Cache CacheKey Text}
    (keeps : ∀ key text, u.cache.get? key = some text → cache.get? key = some text)
    (inflight : cache.inflight = u.cache.inflight) :
    Adds c may t ⟨cache.release (c.key d), u.runs ++ [⟨rewritten d r, arguments, site⟩]⟩
      (new ++ [⟨rewritten d r, arguments, site⟩]) := by
  refine body.close absent free keeps inflight (some ⟨rewritten d r, arguments, site⟩) ?_
  rintro call ⟨⟩
  exact ⟨rfl, d, isDefinition, allowed, r, replays, rfl⟩

end Adds

theorem Stores.later {t u : Trail} {new : List Invocation} (stores : Stores c t new)
    (keeps : ∀ key text, t.cache.get? key = some text → u.cache.get? key = some text) :
    Stores c u new := by
  intro call member
  obtain ⟨text, stored⟩ := stores call member
  exact ⟨text, keeps _ _ stored⟩

mutual

theorem Expands.adds {chain : List String} {d : Definition} {site : CallSite} {arguments : Text}
    {t u : Trail} {result : Except PassError Text}
    (expands : Expands c chain d site arguments t result u) (isDefinition : d ∈ c.scan.definitions) :
    ∃ new, Adds c (c.scan.Reaches d.name) t u new ∧
      ∀ text, result = .ok text → u.cache.get? (c.key d) = some text ∧ Stores c u new :=
  match expands with
  | .cycle _ | .waits _ _ _ => ⟨[], .nil c _ t, fun _ same => by cases same⟩
  | .hit _ found => ⟨[], .nil c _ t, fun _ same => by cases same; exact ⟨found, by simp [Stores]⟩⟩
  | .fails _ absent free body => by
      obtain ⟨new, adds, -⟩ := body.adds
      have adds := adds.weaken (reaches_of_call isDefinition)
      exact ⟨new, adds.abort absent free, fun _ same => by cases same⟩
  | .breaks _ absent free body _ => by
      obtain ⟨new, adds, done⟩ := body.adds
      have adds := adds.weaken (reaches_of_call isDefinition)
      have ran := adds.run absent free isDefinition .refl (done _ rfl).1 arguments site
        (fun _ _ found => found) rfl
      exact ⟨_, ran, fun _ same => by cases same⟩
  | .runs _ absent free body _ => by
      obtain ⟨new, adds, done⟩ := body.adds
      obtain ⟨replays, stores⟩ := done _ rfl
      have adds := adds.weaken (reaches_of_call isDefinition)
      refine ⟨_, adds.run absent free isDefinition .refl replays arguments site
        (fun _ _ => Cache.put_keeps) (Cache.put_inflight _ _ _).1, fun _ same => ?_⟩
      cases same
      refine ⟨Cache.put_stored _ _ _, fun call member => ?_⟩
      rcases List.mem_append.mp member with earlier | last
      · exact (stores.later fun _ _ => Cache.put_keeps) call earlier
      · obtain rfl := List.mem_singleton.mp last
        exact ⟨_, Cache.put_stored _ _ _⟩

theorem ExpandsAll.adds {chain : List String} {r : Rewriting} {sites : List CallSite} {t u : Trail}
    {result : Except PassError Rewriting} (expands : ExpandsAll c chain r sites t result u) :
    ∃ new, Adds c (fun name => ∃ site ∈ sites, c.scan.Reaches site.name name) t u new ∧
      ∀ r', result = .ok r' → Replays c u.cache r sites r' ∧ Stores c u new :=
  match expands with
  | .done => ⟨[], .nil c _ t, fun _ same => by cases same; exact ⟨.done, by simp [Stores]⟩⟩
  | .stops _ _ => ⟨[], .nil c _ t, fun _ same => by cases same⟩
  | .skips unknown next => by
      obtain ⟨new, adds, done⟩ := next.adds
      refine ⟨new, adds.weaken fun _ => reached_later, fun r' same => ?_⟩
      obtain ⟨replays, stores⟩ := done r' same
      exact ⟨.skips unknown replays, stores⟩
  | .fails known _ call | .refuses known _ call _ => by
      obtain ⟨new, adds, -⟩ := call.adds (Scan.definition?_eq_some known).1
      exact ⟨new, adds.weaken fun _ => reached_now known, fun _ same => by cases same⟩
  | .replaces known written call replaced next => by
      obtain ⟨first, adds, stored⟩ := call.adds (Scan.definition?_eq_some known).1
      obtain ⟨isStored, stores⟩ := stored _ rfl
      obtain ⟨second, more, done⟩ := next.adds
      refine ⟨first ++ second, (adds.weaken fun _ => reached_now known).trans stores
        (more.weaken fun _ => reached_later), fun r' same => ?_⟩
      obtain ⟨replays, stores'⟩ := done r' same
      refine ⟨.replaces known written (more.keeps _ _ isStored) replaced replays, ?_⟩
      intro call member
      exact (List.mem_append.mp member).elim (stores.later more.keeps call) (stores' call)

end

/-! ## A second pass -/

theorem Expands.of_stored {d : Definition} {site : CallSite} {arguments text : Text} {t u : Trail}
    {result : Except PassError Text} (expands : Expands c [] d site arguments t result u)
    (isDefinition : d ∈ c.scan.definitions) (stored : t.cache.get? (c.key d) = some text) :
    result = .ok text ∧ u = t := by
  cases expands with
  | cycle again =>
    rcases again with again | exhausted
    · cases again
    · have filled := List.length_pos_of_mem isDefinition
      rw [List.length_nil] at exhausted
      omega
  | hit _ found =>
    rw [stored] at found
    cases found
    exact ⟨rfl, rfl⟩
  | waits _ absent | fails _ absent | breaks _ absent | runs _ absent =>
    rw [stored] at absent
    cases absent

/-- Calls that were replaced by stored results are replaced by them again, however macros run. -/
theorem Replays.again {τ : Type} {execute : Executor τ} {cache : Cache CacheKey Text} {r r' : Rewriting}
    {sites : List CallSite} (replays : Replays c cache r sites r') {t u : Trail}
    {result : Except PassError Rewriting} (same : t.cache = cache)
    (expands : ExpandsAll ⟨c.settings, execute, c.source, c.lines, c.scan⟩ [] r sites t result u) :
    result = .ok r' ∧ u = t := by
  subst same
  induction replays with
  | done =>
    cases expands
    exact ⟨rfl, rfl⟩
  | skips unknown _ ih =>
    cases expands with
    | skips _ next => exact ih next
    | stops known | fails known | refuses known | replaces known =>
      rw [known] at unknown
      cases unknown
  | replaces known written stored replaced _ ih =>
    have isDefinition := (Scan.definition?_eq_some known).1
    cases expands with
    | skips unknown =>
      rw [known] at unknown
      cases unknown
    | stops _ unwritten =>
      rw [written] at unwritten
      cases unwritten
    | fails known' _ call =>
      rw [known] at known'
      cases known'
      cases (call.of_stored isDefinition stored).1
    | refuses known' _ call refused =>
      rw [known] at known'
      cases known'
      cases (call.of_stored isDefinition stored).1
      rw [replaced] at refused
      cases refused
    | replaces known' _ call replaced' next =>
      rw [known] at known'
      cases known'
      obtain ⟨same, rfl⟩ := call.of_stored isDefinition stored
      cases same
      rw [replaced] at replaced'
      cases replaced'
      exact ih next

/-! ## Equal calls, equal results -/

def editOf (e : Expansion) (text : Text) : Edit :=
  ⟨e.site.span.start, e.site.span.stop, Rewriting.replacement e.site e.result text, some e.site.name⟩

/-- Each call is replaced, in the tree and in the text, by the expression of its macro. -/
structure Writes (value : String → Text) (sites : List CallSite) (r : Rewriting) : Prop where
  results : List.Forall₂ (fun site e => e.site = site ∧ parseExpression (value site.name) = .ok e.result)
    sites r.expansions
  edits : r.edits = r.expansions.map fun e => editOf e (value e.site.name)

theorem expand_eq_ok {r r' : Rewriting} {site : CallSite} {text : Text} {edit : Edit}
    (replaced : r.expand site text = .ok (r', edit)) :
    ∃ result, parseExpression text = .ok result ∧ edit = editOf ⟨site, result⟩ text ∧
      (∀ e ∈ r.expansions, e.site.label ≠ site.label) ∧
      r' = { edits := r.edits ++ [edit], expansions := r.expansions ++ [⟨site, result⟩] } := by
  unfold Rewriting.expand at replaced
  split at replaced
  · cases replaced
  · rename_i isNew
    split at replaced
    · cases replaced
    · rename_i result parsed
      cases replaced
      refine ⟨result, parsed, rfl, fun e member same => isNew ?_, rfl⟩
      exact List.any_eq_true.mpr ⟨e, member, by simpa using same⟩

def Context.value (c : Context σ) (cache : Cache CacheKey Text) (name : String) : Text :=
  ((c.scan.definition? name).bind fun d => cache.get? (c.key d)).getD []

theorem Replays.writes {cache : Cache CacheKey Text} {r r' : Rewriting} {sites : List CallSite}
    (replays : Replays c cache r sites r')
    (known : ∀ site ∈ sites, ∃ d, c.scan.definition? site.name = some d) :
    ∃ new, Writes (c.value cache) sites new ∧
      r' = ⟨r.edits ++ new.edits, r.expansions ++ new.expansions⟩ := by
  induction replays with
  | done => exact ⟨{}, ⟨.nil, rfl⟩, by simp⟩
  | skips unknown =>
    obtain ⟨d, isKnown⟩ := known _ (.head _)
    rw [isKnown] at unknown
    cases unknown
  | @replaces r r' r'' site rest d arguments text edit isKnown written stored replaced next ih =>
    obtain ⟨new, writes, rfl⟩ := ih fun site member => known site (.tail _ member)
    obtain ⟨result, parsed, rfl, -, rfl⟩ := expand_eq_ok replaced
    have isValue : c.value cache site.name = text := by simp [Context.value, isKnown, stored]
    refine ⟨⟨editOf ⟨site, result⟩ text :: new.edits, ⟨site, result⟩ :: new.expansions⟩, ⟨?_, ?_⟩, ?_⟩
    · exact .cons ⟨rfl, isValue.symm ▸ parsed⟩ writes.results
    · simp [writes.edits, isValue]
    · simp

theorem Replays.writes_all {cache : Cache CacheKey Text} {r : Rewriting} {sites : List CallSite}
    (replays : Replays c cache {} sites r)
    (known : ∀ site ∈ sites, ∃ d, c.scan.definition? site.name = some d) :
    Writes (c.value cache) sites r := by
  obtain ⟨new, writes, rfl⟩ := replays.writes known
  simpa using writes

end Pass

/-! ## Passes -/

theorem Scan.CallContext.name_mem_of_callee {c : Scan.CallContext} {call : Tree} {name : String}
    (isCallee : c.callee? call = some name) : name ∈ c.names := by
  unfold callee? at isCallee
  split at isCallee
  · split at isCallee
    · rename_i contained
      cases isCallee
      exact List.contains_iff_mem.mp contained
    · cases isCallee
  · cases isCallee

/-- A recorded call calls a macro of the file. -/
theorem Scan.Found.known {c : Scan.Context} {tree : Tree} {scan : Scan} (found : Scan.Found c tree scan)
    {site : CallSite} (recorded : site ∈ scan.sites ∨ ∃ d ∈ scan.definitions, site ∈ d.calls) :
    ∃ d, scan.definition? site.name = some d := by
  have named : ∀ skipped free t, site ∈ Scan.callsOf
      (Scan.CallContext.uses ⟨scan.definitions.map Definition.name, skipped, c.lines⟩ free t) →
      site.name ∈ scan.definitions.map Definition.name := by
    intro skipped free t member
    obtain ⟨call, -, name, -, isCallee, rfl⟩ :=
      Scan.CallContext.exists_call (Scan.CallContext.mem_callsOf.mp member)
    exact Scan.CallContext.name_mem_of_callee isCallee
  have isNamed : site.name ∈ scan.definitions.map Definition.name := by
    rcases recorded with outside | ⟨d, isDefinition, inside⟩
    · rw [found.sites] at outside
      exact named _ _ _ outside
    · rw [found.calls d isDefinition] at inside
      exact named _ _ _ inside
  obtain ⟨d, isDefinition, same⟩ := List.mem_map.mp isNamed
  exact Option.isSome_iff_exists.mp (List.find?_isSome.mpr ⟨d, isDefinition, by simp [same]⟩)

theorem Pass.found_of_scanned {settings : Settings} {source path : Text} {tree : Tree} {scan : Scan}
    (scanned : Pass.scanned settings source path = .ok (tree, scan)) :
    Scan.Found ⟨path, settings.directive, source.lines⟩ tree scan := by
  unfold Pass.scanned at scanned
  split at scanned
  · cases scanned
  · split at scanned
    · cases scanned
    · rename_i found
      cases scanned
      exact found_of_scanTree found

/-- A file without macros is left as it is, and nothing runs. -/
theorem Pass.expandMacros_plain {settings : Settings} {source path : Text} {tree : Tree} {scan : Scan}
    (scanned : Pass.scanned settings source path = .ok (tree, scan)) (noMacros : scan.definitions = [])
    {τ : Type} (execute : Executor τ) (t : PassState τ) :
    let ended := (expandMacros settings execute source path).run.run t
    ended.1 = unchanged settings source path tree ∧ ended.2.trail = t.trail := by
  have pass := expandMacros_expands settings execute source path t
  rw [scanned] at pass
  rcases pass with ⟨-, plain⟩ | ⟨macros, -⟩
  · exact plain
  · exact absurd noMacros macros

/-- A file without macros has no recorded calls. -/
theorem Scan.Found.no_sites {c : Scan.Context} {tree : Tree} {scan : Scan}
    (found : Scan.Found c tree scan) (noMacros : scan.definitions = []) : scan.sites = [] := by
  rw [found.sites]
  exact Scan.CallContext.callsOf_uses_nil (by simp [Scan.outerCalls, noMacros]) _ _

/-- A file whose calls were replaced by stored results comes to the same end again. -/
theorem Pass.expandMacros_again {σ τ : Type} {c : Context σ} {path : Text} {tree : Tree} {r : Rewriting}
    (scanned : Pass.scanned c.settings c.source path = .ok (tree, c.scan))
    (macros : c.scan.definitions ≠ []) (lines : c.lines = c.source.lines) {t : PassState τ}
    (replays : Replays c t.cache {} c.scan.sites r) (execute : Executor τ) :
    let again := (expandMacros c.settings execute c.source path).run.run t
    again.1 = finish c path tree r ∧ again.2.runs = t.runs := by
  have second := expandMacros_expands c.settings execute c.source path t
  rw [scanned] at second
  rcases second with ⟨noMacros, -⟩ | ⟨-, replaced, all, result⟩
  · exact absurd noMacros macros
  · rw [← lines] at all result
    obtain ⟨rfl, same⟩ := replays.again rfl all
    exact ⟨result, congrArg Trail.runs same⟩

open Pass in
/-- A pass runs at most one macro for each key, and only macros whose key has no result and that some
call outside the macros reaches, whether it succeeds or not.  If it succeeds, there is one expression
for each macro that takes the place of all its calls, and another pass over the file that starts with
the results of this one runs nothing and gives the same, whatever runs would do. -/
theorem macros_run_once {σ : Type} (settings : Settings) (execute : Executor σ) (source path : Text)
    (s : PassState σ) :
    let key := fun call : Invocation => call.definition.cacheKey settings.cachePolicy
    let ended := (expandMacros settings execute source path).run.run s
    ∃ new, ended.2.runs = s.runs ++ new ∧ (new.map key).Nodup ∧
      (∀ call ∈ new, s.cache.get? (key call) = none) ∧
      (∀ call ∈ new, ∃ tree scan, scanned settings source path = .ok (tree, scan) ∧
        ∃ site ∈ scan.sites, scan.Reaches site.name call.definition.name) ∧
      ∀ expanded, ended.1 = .ok expanded →
        (∃ tree scan, scanned settings source path = .ok (tree, scan) ∧
          ∃ value, (∀ call ∈ new, ∃ d ∈ scan.definitions, ∃ r,
              Writes value d.calls r ∧ call.definition = rewritten d r) ∧
            ∃ r, Writes value scan.sites r ∧ (scan.definitions ≠ [] →
              finish ⟨settings, execute, source, source.lines, scan⟩ path tree r = .ok expanded)) ∧
        ∀ (τ : Type) (execute' : Executor τ) (t : PassState τ), t.cache = ended.2.cache →
          let again := (expandMacros settings execute' source path).run.run t
          again.1 = .ok expanded ∧ again.2.runs = t.runs := by
  intro key ended
  have first := expandMacros_expands settings execute source path s
  have nothing : ended.2.trail = s.trail → ended.2.runs = s.runs ++ [] :=
    fun same => (congrArg Trail.runs same).trans (List.append_nil _).symm
  cases isScanned : scanned settings source path with
  | error e =>
    rw [isScanned] at first
    obtain ⟨failed, same⟩ := first
    refine ⟨[], nothing same, by simp, by simp, by simp, ?_⟩
    intro expanded succeeded
    cases succeeded.symm.trans failed
  | ok file =>
    obtain ⟨tree, scan⟩ := file
    rw [isScanned] at first
    have found := found_of_scanned isScanned
    rcases first with ⟨noMacros, plain, same⟩ | ⟨macros, replaced, all, result⟩
    · refine ⟨[], nothing same, by simp, by simp, by simp, ?_⟩
      intro expanded succeeded
      refine ⟨⟨tree, scan, rfl, fun _ => [], by simp, {}, found.no_sites noMacros ▸ ⟨.nil, rfl⟩,
        fun macros => absurd noMacros macros⟩, ?_⟩
      intro τ execute' t _
      obtain ⟨plain', same'⟩ := expandMacros_plain isScanned noMacros execute' t
      exact ⟨plain'.trans (plain.symm.trans succeeded), congrArg Trail.runs same'⟩
    · obtain ⟨new, adds, done⟩ := all.adds
      refine ⟨new, adds.runs, adds.distinct, fun call member => (adds.fresh call member).1, ?_, ?_⟩
      · intro call member
        obtain ⟨d, -, ⟨site, isSite, reached⟩, r, -, same⟩ := adds.macros call member
        exact ⟨tree, scan, rfl, site, isSite, same ▸ reached⟩
      · intro expanded succeeded
        cases replaced with
        | error e => cases succeeded.symm.trans result
        | ok r =>
          obtain ⟨replays, -⟩ := done r rfl
          have finished := result.symm.trans succeeded
          refine ⟨⟨tree, scan, rfl, _, ?_, r,
            replays.writes_all fun site member => found.known (.inl member), fun _ => finished⟩, ?_⟩
          · intro call member
            obtain ⟨d, isDefinition, -, r', replays', same⟩ := adds.macros call member
            exact ⟨d, isDefinition, r', replays'.writes_all fun site inside =>
              found.known (.inr ⟨d, isDefinition, inside⟩), same⟩
          · intro τ execute' t same
            have replays' : Replays ⟨settings, execute, source, source.lines, scan⟩ t.cache {}
                scan.sites r := by
              rw [same]
              exact replays
            obtain ⟨again, quiet⟩ := expandMacros_again (c := ⟨settings, execute, source,
              source.lines, scan⟩) isScanned macros rfl replays' execute'
            exact ⟨again.trans finished, quiet⟩

end MacroExpand
