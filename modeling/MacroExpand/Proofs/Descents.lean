import MacroExpand.Proofs.Cycles

/-!
# A pass alone never waits

What a pass does is listed in order (`Context.trace`): for which macros it asks, which runs it makes and which edits
it writes.  Whenever it asks for a macro, the keys that are being computed are those of the macros in the chain, one
after another.  Macros of one file have different keys, so a macro that is not in the chain is not being computed, and
the pass does not wait.  The chain has no name twice and all its names are macros of the file, so it ends before it
is longer than the list of macros, and no larger count of macros would change what the pass does.
-/

set_option autoImplicit false

namespace MacroExpand

namespace Pass

variable {σ : Type} {c : Context σ}

/-! ## What a pass does, in order -/

/-- Something that a pass does.  `chain` are the macros that are being expanded, outermost first. -/
inductive Event where
  /-- The result of a macro is asked for: `done` are the calls beside this one that are replaced already. -/
  | asks (chain : List String) (definition : Definition) (site : CallSite) (done : Rewriting)
      (cache : Cache CacheKey Text)
  /-- A macro is run. -/
  | runs (chain : List String) (call : Invocation) (cache : Cache CacheKey Text)
  /-- A call is replaced. -/
  | writes (site : CallSite) (edit : Edit)

/-- The way to a macro that is asked for, with the macro at its end. -/
def Event.way? : Event → Option (List String)
  | .asks chain d _ _ _ => some (chain ++ [d.name])
  | _ => none

def Event.run? : Event → Option Invocation
  | .runs _ call _ => some call
  | _ => none

/-- What is done while calls are replaced one after another, where `inner` is done to get the result of a call. -/
def Context.traceSites (c : Context σ) (result : Definition → CallSite → Text → PassM σ Text)
    (inner : Definition → CallSite → Text → PassState σ → List Event) (chain : List String) :
    Rewriting → List CallSite → PassState σ → List Event
  | _, [], _ => []
  | r, site :: rest, s =>
    match c.scan.definition? site.name with
    | none => c.traceSites result inner chain r rest s
    | some d =>
      match c.source.splice r.edits (some (site.argsSpan.start, site.argsSpan.stop)) with
      | .error _ => []
      | .ok arguments =>
        .asks chain d site r s.cache :: inner d site arguments s ++
          match (result d site arguments).outcome s with
          | (.error _, _) => []
          | (.ok text, t) =>
            match r.expand site text with
            | .error _ => []
            | .ok (r', edit) =>
              .writes site edit ::
                c.traceSites result inner chain r' rest { t with log := t.log ++ [Rewriting.entry site] }

def Context.traceMacro (c : Context σ) :
    Nat → List String → Definition → CallSite → Text → PassState σ → List Event
  | 0, _, _, _, _, _ => []
  | free + 1, chain, d, site, arguments, s =>
    if chain.contains d.name then []
    else match s.cache.claim (c.key d) with
      | (cache, .own _) =>
        let chain := chain ++ [d.name]
        let result := expandMacro c free chain
        c.traceSites result (c.traceMacro free chain) chain {} d.calls { s with cache } ++
          match (expandBody c result d).outcome { s with cache } with
          | (.error _, _) => []
          | (.ok ready, t) => [.runs chain ⟨ready, arguments, site⟩ t.cache]
      | _ => []

/-- What a pass does to a file. -/
def Context.trace (c : Context σ) (s : PassState σ) : List Event :=
  let count := c.scan.definitions.length
  c.traceSites (expandMacro c count []) (c.traceMacro count []) [] {} c.scan.sites s

/-! ## The keys that are being computed -/

def Context.Computing (c : Context σ) (chain : List String) (cache : Cache CacheKey Text) : Prop :=
  ∃ macros : List Definition, (∀ d ∈ macros, d ∈ c.scan.definitions) ∧
    macros.map Definition.name = chain ∧ cache.inflight.map Prod.fst = macros.map c.key

namespace Context.Computing

variable {chain : List String} {cache cache' : Cache CacheKey Text} {d : Definition}

theorem nil (idle : cache.inflight = []) : c.Computing [] cache :=
  ⟨[], by simp, rfl, by simp [idle]⟩

theorem later (computing : c.Computing chain cache) (same : cache'.inflight = cache.inflight) :
    c.Computing chain cache' := by
  obtain ⟨macros, inside, named, keys⟩ := computing
  exact ⟨macros, inside, named, same ▸ keys⟩

theorem macros (computing : c.Computing chain cache) : chain ⊆ c.scan.definitions.map Definition.name := by
  obtain ⟨macros, inside, rfl, -⟩ := computing
  exact List.map_subset _ inside

theorem length_le (computing : c.Computing chain cache) (distinct : chain.Nodup) :
    chain.length ≤ c.scan.definitions.length := by
  simpa using (distinct.subperm computing.macros).length_le

theorem free (computing : c.Computing chain cache) (isNew : d.name ∉ chain) :
    cache.ticket? (c.key d) = none := by
  obtain ⟨macros, -, rfl, keys⟩ := computing
  rw [Cache.ticket?_eq_none, keys]
  intro busy
  obtain ⟨d', isMacro, same⟩ := List.mem_map.mp busy
  exact isNew (List.mem_map.mpr ⟨d', isMacro, name_of_key same⟩)

theorem not_wait (computing : c.Computing chain cache) (isNew : d.name ∉ chain) (ticket : Nat) :
    (cache.claim (c.key d)).2 ≠ .wait ticket := by
  unfold Cache.claim
  rw [computing.free isNew]
  cases cache.get? (c.key d) <;> simp

theorem claim (computing : c.Computing chain cache) (isDefinition : d ∈ c.scan.definitions)
    (absent : cache.get? (c.key d) = none) (isNew : d.name ∉ chain) :
    c.Computing (chain ++ [d.name]) (cache.claim (c.key d)).1 := by
  have claimed : (cache.claim (c.key d)).1.inflight = cache.inflight ++ [(c.key d, cache.issued)] := by
    simp [Cache.claim, absent, computing.free isNew]
  obtain ⟨macros, inside, named, keys⟩ := computing
  refine ⟨macros ++ [d], fun d' member => ?_, by simp [named], by simp [claimed, keys]⟩
  rcases List.mem_append.mp member with before | last
  · exact inside d' before
  · exact List.mem_singleton.mp last ▸ isDefinition

end Context.Computing

/-! ## No step waits -/

theorem ofRunError_ne_waiting (d : Definition) (e : RunError) (ticket : Nat) : ofRunError d e ≠ .waiting ticket := by
  unfold ofRunError
  split <;> simp

mutual

/-- Getting the result of a macro does not end with waiting if only the macros in the chain are being computed. -/
theorem Expands.ne_waiting {chain : List String} {d : Definition} {site : CallSite} {arguments : Text} {t u : Trail}
    {result : Except PassError Text} (expands : Expands c chain d site arguments t result u)
    (isDefinition : d ∈ c.scan.definitions) (computing : c.Computing chain t.cache) (ticket : Nat) :
    result ≠ .error (.waiting ticket) :=
  match expands with
  | .cycle _ => by simp [cycle]
  | .hit _ _ | .runs _ _ _ _ _ => nofun
  | .waits isNew _ busy => absurd (computing.free isNew) (by simp [busy])
  | .breaks _ _ _ _ _ => by simpa using ofRunError_ne_waiting _ _ ticket
  | .fails isNew absent _ body => fun same =>
      body.ne_waiting (computing.claim isDefinition absent isNew) ticket
        (congrArg Except.error (Except.error.inj same))

theorem ExpandsAll.ne_waiting {chain : List String} {r : Rewriting} {sites : List CallSite} {t u : Trail}
    {result : Except PassError Rewriting} (expands : ExpandsAll c chain r sites t result u)
    (computing : c.Computing chain t.cache) (ticket : Nat) : result ≠ .error (.waiting ticket) :=
  match expands with
  | .done | .stops _ _ | .refuses _ _ _ _ => nofun
  | .skips _ next => next.ne_waiting computing ticket
  | .fails known _ call => fun same =>
      call.ne_waiting (Scan.definition?_eq_some known).1 computing ticket
        (congrArg Except.error (Except.error.inj same))
  | .replaces known _ call _ next => by
      obtain ⟨_, adds, -⟩ := call.adds (Scan.definition?_eq_some known).1
      exact next.ne_waiting (computing.later adds.inflight) ticket

end

/-! ## What a chain is like whenever the pass does something -/

/-- The chain has no name twice and is no longer than the list of macros, and its macros are those that are being
computed, also while the last of them runs; no macro outside it is waited for. -/
def Event.Descends (c : Context σ) : Event → Prop
  | .asks chain d site _ cache =>
    d ∈ c.scan.definitions ∧ d.name = site.name ∧ chain.Nodup ∧ chain.length ≤ c.scan.definitions.length ∧
      c.Computing chain cache ∧ (d.name ∉ chain → ∀ ticket, (cache.claim (c.key d)).2 ≠ .wait ticket)
  | .runs chain call cache =>
    chain.Nodup ∧ chain.length ≤ c.scan.definitions.length ∧ c.Computing chain cache ∧
      chain.getLast? = some call.definition.name
  | .writes _ _ => True

theorem inflight_expandMacro {free : Nat} {chain : List String} {d : Definition}
    (counted : free + chain.length = c.scan.definitions.length) (isDefinition : d ∈ c.scan.definitions)
    (site : CallSite) (arguments : Text) (s : PassState σ) :
    ((expandMacro c free chain d site arguments).outcome s).2.cache.inflight = s.cache.inflight := by
  obtain ⟨_, adds, -⟩ := (expandMacro_expands c free chain d site arguments s counted).adds isDefinition
  exact adds.inflight

theorem descends_traceSites {result : Definition → CallSite → Text → PassM σ Text}
    {inner : Definition → CallSite → Text → PassState σ → List Event} {chain : List String}
    (distinct : chain.Nodup)
    (keeps : ∀ d ∈ c.scan.definitions, ∀ site arguments s,
      ((result d site arguments).outcome s).2.cache.inflight = s.cache.inflight)
    (below : ∀ d ∈ c.scan.definitions, ∀ site arguments s, c.Computing chain s.cache →
      ∀ event ∈ inner d site arguments s, event.Descends c)
    (r : Rewriting) (sites : List CallSite) (s : PassState σ) (computing : c.Computing chain s.cache) :
    ∀ event ∈ c.traceSites result inner chain r sites s, event.Descends c := by
  induction sites generalizing r s with
  | nil => simp [Context.traceSites]
  | cons site rest ih =>
    intro event member
    unfold Context.traceSites at member
    split at member
    · exact ih r s computing event member
    · rename_i d known
      obtain ⟨isDefinition, named⟩ := Scan.definition?_eq_some known
      split at member
      · cases member
      · rename_i arguments _
        rw [List.cons_append, List.mem_cons, List.mem_append] at member
        rcases member with rfl | inside | later
        · exact ⟨isDefinition, named, distinct, computing.length_le distinct, computing,
            fun isNew => computing.not_wait isNew⟩
        · exact below d isDefinition site arguments s computing event inside
        · have same := keeps d isDefinition site arguments s
          split at later
          · cases later
          · rename_i text t ended
            rw [ended] at same
            split at later
            · cases later
            · rcases List.mem_cons.mp later with rfl | later
              · trivial
              · refine ih _ _ ?_ event later
                exact computing.later same

theorem descends_traceMacro (free : Nat) (chain : List String)
    (counted : free + chain.length = c.scan.definitions.length) (distinct : chain.Nodup) :
    ∀ d ∈ c.scan.definitions, ∀ site arguments s, c.Computing chain s.cache →
      ∀ event ∈ c.traceMacro free chain d site arguments s, event.Descends c := by
  induction free generalizing chain with
  | zero => simp [Context.traceMacro]
  | succ free ih =>
    intro d isDefinition site arguments s computing event member
    unfold Context.traceMacro at member
    split at member
    · cases member
    · rename_i isNew
      replace isNew : d.name ∉ chain := fun again => isNew (List.contains_iff_mem.mpr again)
      have longer : (chain ++ [d.name]).Nodup :=
        distinct.append (List.nodup_singleton _) (List.disjoint_singleton.mpr isNew)
      have counted : free + (chain ++ [d.name]).length = c.scan.definitions.length := by
        rw [List.length_append, List.length_singleton]
        omega
      split at member
      · rename_i cache ticket claimed
        have absent := (Cache.claim_own claimed).1
        have inside : c.Computing (chain ++ [d.name]) cache := by
          have inside := computing.claim isDefinition absent isNew
          rwa [claimed] at inside
        rcases List.mem_append.mp member with before | last
        · exact descends_traceSites longer (fun _ => inflight_expandMacro counted) (ih _ counted longer) {} d.calls _
            inside event before
        · obtain ⟨ended, all, ready⟩ := expandBody_expands (fun d' site' arguments' s' =>
            expandMacro_expands c free _ d' site' arguments' s' counted) d { s with cache }
          obtain ⟨_, adds, -⟩ := all.adds
          split at last
          · cases last
          · rename_i readied t finished
            obtain rfl := List.mem_singleton.mp last
            rw [finished] at adds ready
            have here := inside.later adds.inflight
            refine ⟨longer, here.length_le longer, here, ?_⟩
            cases ended with
            | error e => cases ready
            | ok r =>
              cases ready
              simp [rewritten]
      · cases member

/-! ## The count of macros is never used up -/

theorem expandSites_congr {result result' : Definition → CallSite → Text → PassM σ Text}
    (alike : ∀ d ∈ c.scan.definitions, result d = result' d) (r : Rewriting) (sites : List CallSite) :
    expandSites c result r sites = expandSites c result' r sites := by
  induction sites generalizing r with
  | nil => rfl
  | cons site rest ih =>
    rw [expandSites, expandSites]
    cases known : c.scan.definition? site.name with
    | none => exact ih r
    | some d =>
      simp only [alike d (Scan.definition?_eq_some known).1, ih]

/-- A pass comes to a macro of its chain before the macros are used up, so more of them would change nothing. -/
theorem expandMacro_more (more free : Nat) (chain : List String) (distinct : chain.Nodup)
    (macros : chain ⊆ c.scan.definitions.map Definition.name)
    (enough : c.scan.definitions.length ≤ free + chain.length) (d : Definition)
    (isDefinition : d ∈ c.scan.definitions) :
    expandMacro c (free + more) chain d = expandMacro c free chain d := by
  induction free generalizing chain d with
  | zero =>
    have full : d.name ∈ chain := by
      have all := (distinct.subperm macros).perm_of_length_le (by simpa using enough)
      exact all.mem_iff.mpr (List.mem_map.mpr ⟨d, isDefinition, rfl⟩)
    funext site arguments
    unfold expandMacro
    rw [if_pos (List.contains_iff_mem.mpr full), if_pos (List.contains_iff_mem.mpr full)]
  | succ free ih =>
    funext site arguments
    rw [show free + 1 + more = free + more + 1 by omega, expandMacro, expandMacro]
    split
    · rfl
    · rename_i isNew
      replace isNew : d.name ∉ chain := fun again => isNew (List.contains_iff_mem.mpr again)
      have bodies : expandBody c (expandMacro c (free + more) (chain ++ [d.name])) d =
          expandBody c (expandMacro c free (chain ++ [d.name])) d := by
        rw [expandBody, expandBody, expandSites_congr fun d' isDefinition' => ih (chain ++ [d.name]) ?_ ?_ ?_ d' isDefinition']
        · exact distinct.append (List.nodup_singleton _) (List.disjoint_singleton.mpr isNew)
        · exact List.append_subset.mpr ⟨macros,
            List.cons_subset.mpr ⟨List.mem_map.mpr ⟨d, isDefinition, rfl⟩, List.nil_subset _⟩⟩
        · rw [List.length_append, List.length_singleton]
          omega
      rw [bodies]

/-! ## The runs of a pass -/

/-- The runs among the things that are done. -/
def runsOf (events : List Event) : List Invocation := events.filterMap Event.run?

theorem runsOf_append (before after : List Event) : runsOf (before ++ after) = runsOf before ++ runsOf after :=
  List.filterMap_append

@[simp] theorem runsOf_asks {chain : List String} {d : Definition} {site : CallSite} {done : Rewriting}
    {cache : Cache CacheKey Text} (events : List Event) :
    runsOf (.asks chain d site done cache :: events) = runsOf events := rfl

@[simp] theorem runsOf_writes {site : CallSite} {edit : Edit} (events : List Event) :
    runsOf (.writes site edit :: events) = runsOf events := rfl

theorem runs_traceSites {result : Definition → CallSite → Text → PassM σ Text}
    {inner : Definition → CallSite → Text → PassState σ → List Event} (chain : List String)
    (same : ∀ d site arguments s,
      ((result d site arguments).outcome s).2.runs = s.runs ++ runsOf (inner d site arguments s))
    (r : Rewriting) (sites : List CallSite) (s : PassState σ) :
    ((expandSites c result r sites).outcome s).2.runs =
      s.runs ++ runsOf (c.traceSites result inner chain r sites s) := by
  induction sites generalizing r s with
  | nil => exact (List.append_nil _).symm
  | cons site rest ih =>
    rw [outcome_expandSites_cons]
    unfold Context.traceSites
    cases known : c.scan.definition? site.name with
    | none => exact ih r s
    | some d =>
      dsimp only
      cases written : c.source.splice r.edits (some (site.argsSpan.start, site.argsSpan.stop)) with
      | error e => exact (List.append_nil _).symm
      | ok arguments =>
        have before := same d site arguments s
        dsimp only
        rw [runsOf_append, runsOf_asks]
        rcases ended : (result d site arguments).outcome s with ⟨e | text, t⟩
        · rw [ended] at before
          simpa [runsOf] using before
        · rw [ended] at before
          dsimp only at before ⊢
          cases replaced : r.expand site text with
          | error e => simpa [runsOf] using before
          | ok pair => rw [ih, before, List.append_assoc, runsOf_writes]

theorem runs_expandBody (result : Definition → CallSite → Text → PassM σ Text) (d : Definition) (s : PassState σ) :
    ((expandBody c result d).outcome s).2.runs = ((expandSites c result {} d.calls).outcome s).2.runs := by
  rw [expandBody]
  split
  · rename_i noCalls
    rw [List.isEmpty_iff.mp noCalls]
    rfl
  · rw [PassM.outcome_bind]
    rcases (expandSites c result {} d.calls).outcome s with ⟨_ | _, t⟩ <;> rfl

theorem runs_cached (key : CacheKey) (compute : PassM σ Text) (s : PassState σ) :
    ((cached key compute).outcome s).2.runs = match s.cache.claim key with
      | (cache, .own _) => (compute.outcome { s with cache }).2.runs
      | _ => s.runs := by
  cases found : s.cache.get? key with
  | some text =>
    obtain ⟨log, ended⟩ : ∃ log, (cached key compute).outcome s = (.ok text, { s with log }) :=
      outcome_cached_hit found
    rw [ended, show s.cache.claim key = (s.cache, .hit text) by simp [Cache.claim, found]]
  | none =>
    cases busy : s.cache.ticket? key with
    | some ticket =>
      obtain ⟨log, ended⟩ : ∃ log, (cached key compute).outcome s = (.error (.waiting ticket), { s with log }) :=
        outcome_cached_waits found busy
      rw [ended, show s.cache.claim key = (s.cache, .wait ticket) by simp [Cache.claim, found, busy]]
    | none =>
      have claimed : s.cache.claim key = ((s.cache.claim key).1, .own s.cache.issued) := by
        simp [Cache.claim, found, busy]
      rw [claimed]
      dsimp only
      rcases computed : compute.outcome { s with cache := (s.cache.claim key).1 } with ⟨e | text, t⟩
      · rw [outcome_cached_fails found busy computed]
      · obtain ⟨log, ended⟩ := outcome_cached_ok found busy computed
        rw [ended]

theorem runs_traceMacro (free : Nat) (chain : List String) (d : Definition) (site : CallSite) (arguments : Text)
    (s : PassState σ) : ((expandMacro c free chain d site arguments).outcome s).2.runs =
      s.runs ++ runsOf (c.traceMacro free chain d site arguments s) := by
  induction free generalizing chain d site arguments s with
  | zero =>
    unfold expandMacro Context.traceMacro
    split <;> exact (List.append_nil _).symm
  | succ free ih =>
    unfold expandMacro Context.traceMacro
    split
    · exact (List.append_nil _).symm
    · rw [runs_cached]
      change (match s.cache.claim (c.key d) with
        | (cache, .own _) => _
        | _ => s.runs) = _
      split
      · rename_i cache _ _
        have before := runs_expandBody (c := c) (expandMacro c free (chain ++ [d.name])) d { s with cache }
        rw [runs_traceSites _ (fun _ _ _ _ => ih _ _ _ _ _)] at before
        rw [PassM.outcome_bind, runsOf_append]
        rcases ended : (expandBody c (expandMacro c free (chain ++ [d.name])) d).outcome { s with cache } with
          ⟨e | ready, t⟩
        · rw [ended] at before
          simpa [runsOf] using before
        · rw [ended] at before
          dsimp only at before ⊢
          rw [outcome_run, before, List.append_assoc]
          rfl
      · exact (List.append_nil _).symm

theorem runs_trace {settings : Settings} {source path : Text} {tree : Tree} {scan : Scan}
    (isScanned : scanned settings source path = .ok (tree, scan)) (execute : Executor σ) (s : PassState σ) :
    let c : Context σ := ⟨settings, execute, source, source.lines, scan⟩
    ((expandMacros settings execute source path).outcome s).2.runs =
      s.runs ++ runsOf (c.trace (scannedState settings source path s)) := by
  intro c
  have before : (scannedState settings source path s).runs = s.runs :=
    congrArg Trail.runs (trail_scannedState settings source path s)
  have file : ((expandFile c path tree).outcome (scannedState settings source path s)).2.runs =
      s.runs ++ runsOf (c.trace (scannedState settings source path s)) := by
    rw [← before]
    exact (congrArg Trail.runs (expandFile_outcome c path tree _).2).trans
      (runs_traceSites [] (fun _ _ _ _ => runs_traceMacro _ _ _ _ _ _) {} _ _)
  have pass := expandMacros_expands settings execute source path s
  have opened := outcome_expandMacros settings execute source path s
  rw [isScanned] at pass opened
  obtain ⟨noMacros, -, same⟩ | ⟨macros, -⟩ := pass
  · have nothing : c.trace (scannedState settings source path s) = [] := by
      rw [Context.trace, (found_of_scanned isScanned).no_sites noMacros]
      rfl
    rw [nothing]
    exact (congrArg Trail.runs same).trans (List.append_nil _).symm
  · rw [opened]
    dsimp only
    rw [if_neg (by simpa using macros)]
    exact file

end Pass

open Pass in
/-- A pass that starts with nothing being computed ends, and does not wait.  Whenever it asks for a macro or runs one,
the keys that are being computed are those of the macros in the chain; these are macros of the file, none of them twice,
so the chain is no longer than there are macros.  Macros of a file have different keys, and none that is outside the
chain is waited for.  The count of macros that bounds the depth is never what ends an expansion: with any larger one
the pass would be the same. -/
theorem lone_pass_never_waits {σ : Type} (settings : Settings) (execute : Executor σ) (source path : Text)
    (s : PassState σ) (idle : s.cache.inflight = []) :
    let ended := (expandMacros settings execute source path).run.run s
    (∀ ticket, ended.1 ≠ .error (.waiting ticket)) ∧ ended.2.cache.inflight = [] ∧
      ∀ tree scan, scanned settings source path = .ok (tree, scan) →
        let c : Context σ := ⟨settings, execute, source, source.lines, scan⟩
        (∀ d ∈ scan.definitions, ∀ d' ∈ scan.definitions, c.key d = c.key d' → d = d') ∧
        (∀ more, expandSites c (expandMacro c (scan.definitions.length + more) []) {} scan.sites =
          expandSites c (expandMacro c scan.definitions.length []) {} scan.sites) ∧
        ended.2.runs = s.runs ++ runsOf (c.trace (scannedState settings source path s)) ∧
        ∀ event ∈ c.trace (scannedState settings source path s), event.Descends c := by
  intro ended
  have pass := expandMacros_expands settings execute source path s
  cases isScanned : scanned settings source path with
  | error e =>
    rw [isScanned] at pass
    obtain ⟨failed, same⟩ := pass
    have kept : ended.2.cache = s.cache := congrArg Trail.cache same
    refine ⟨fun ticket waits => ?_, kept ▸ idle, nofun⟩
    cases failed.symm.trans waits
    rcases scanned_error isScanned with ⟨f, isFault⟩ | ⟨f, isScan⟩
    · cases isFault
    · cases isScan
  | ok file =>
    obtain ⟨tree, scan⟩ := file
    have found := found_of_scanned isScanned
    let c : Context σ := ⟨settings, execute, source, source.lines, scan⟩
    have computing : c.Computing [] (scannedState settings source path s).cache :=
      .nil ((congrArg (fun t => t.cache.inflight) (trail_scannedState settings source path s)).trans idle)
    have keys : ∀ d ∈ scan.definitions, ∀ d' ∈ scan.definitions, c.key d = c.key d' → d = d' :=
      fun d isDefinition d' isDefinition' same =>
        List.inj_on_of_nodup_map found.distinct isDefinition isDefinition' (Context.name_of_key same)
    have more : ∀ more, expandSites c (expandMacro c (scan.definitions.length + more) []) {} scan.sites =
        expandSites c (expandMacro c scan.definitions.length []) {} scan.sites :=
      fun more => expandSites_congr (expandMacro_more more _ [] List.nodup_nil (List.nil_subset _) le_rfl) {} _
    have descends : ∀ event ∈ c.trace (scannedState settings source path s), event.Descends c :=
      descends_traceSites List.nodup_nil (fun _ => inflight_expandMacro rfl)
        (descends_traceMacro _ [] rfl List.nodup_nil) {} _ _ computing
    have runs : ended.2.runs = s.runs ++ runsOf (c.trace (scannedState settings source path s)) :=
      runs_trace isScanned execute s
    rw [isScanned] at pass
    obtain ⟨-, plain, same⟩ | ⟨-, replaced, all, result⟩ := pass
    · have kept : ended.2.cache = s.cache := congrArg Trail.cache same
      refine ⟨fun ticket waits => ?_, kept ▸ idle, fun tree' scan' again => ?_⟩
      · obtain ⟨f, isEmit⟩ := unchanged_error (plain.symm.trans waits)
        cases isEmit
      · cases again
        exact ⟨keys, more, runs, descends⟩
    · obtain ⟨_, adds, -⟩ := all.adds
      refine ⟨fun ticket waits => ?_, adds.inflight.trans idle, fun tree' scan' again => ?_⟩
      · cases replaced with
        | error e =>
          cases (result.symm.trans waits : Except.error e = Except.error (.waiting ticket))
          exact all.ne_waiting (.nil idle) ticket rfl
        | ok r =>
          obtain ⟨f, isEmit⟩ := finish_error (result.symm.trans waits)
          cases isEmit
      · cases again
        exact ⟨keys, more, runs, descends⟩

open Pass in
/-- Two macros that call each other are asked for until the first comes again, and none is waited for. -/
theorem mutualMacros_never_waits :
    let execute : Executor Unit := fun _ world => ⟨.ok ['1'], [], world⟩
    (∀ ticket, ((expandMacros {} execute mutualMacros (chars "m.py")).run.run { world := () }).1 ≠
      .error (.waiting ticket)) ∧
    ∃ tree scan, scanned {} mutualMacros (chars "m.py") = .ok (tree, scan) ∧
      let c : Context Unit := ⟨{}, execute, mutualMacros, mutualMacros.lines, scan⟩
      let trace := c.trace (scannedState {} mutualMacros (chars "m.py") { world := () })
      trace.filterMap Event.way? = [["f"], ["f", "g"], ["f", "g", "f"]] ∧ ∀ event ∈ trace, event.Descends c := by
  intro execute
  obtain ⟨⟨tree, scan⟩, isScanned, ways⟩ : ∃ file, scanned {} mutualMacros (chars "m.py") = .ok file ∧
      ((⟨{}, execute, mutualMacros, mutualMacros.lines, file.2⟩ : Context Unit).trace
        (scannedState {} mutualMacros (chars "m.py") { world := () })).filterMap Event.way? =
          [["f"], ["f", "g"], ["f", "g", "f"]] := by
    rw [show mutualMacros = _ from chars_append _ _]
    decide +kernel
  obtain ⟨never, -, all⟩ := lone_pass_never_waits {} execute mutualMacros (chars "m.py") { world := () } rfl
  exact ⟨never, tree, scan, isScanned, ways, (all tree scan isScanned).2.2.2⟩

end MacroExpand
