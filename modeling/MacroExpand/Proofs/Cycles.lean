import MacroExpand.Proofs.Nesting
import MacroExpand.Proofs.SingleRuns
import Mathlib.Data.List.Chain

/-!
# Cycles are found, and only cycles

Expanding the calls in macros walks through the call graph.  The macros on the way are those in the
chain, and a macro whose result is stored leads to no cycle, since all its calls were expanded before.
So the walk ends at a macro of the chain exactly if some call outside the macros leads to a cycle, and
then the chain is a path of the graph.
-/

set_option autoImplicit false

namespace MacroExpand

/-! ## Cycles of the call graph -/

namespace Scan

variable {scan : Scan} {a b : String}

/-- Calls lead from a macro to one that they lead back to. -/
def Cyclic (scan : Scan) (a : String) : Prop :=
  ∃ b, scan.Reaches a b ∧ Relation.TransGen scan.Calls b b

theorem Cyclic.exists_call (cyclic : scan.Cyclic a) : ∃ b, scan.Calls a b ∧ scan.Cyclic b := by
  obtain ⟨b, reached, around⟩ := cyclic
  rcases Relation.ReflTransGen.cases_head reached with rfl | ⟨next, calls, reached⟩
  · obtain ⟨next, calls, back⟩ := Relation.TransGen.head'_iff.mp around
    exact ⟨next, calls, a, back, around⟩
  · exact ⟨next, calls, b, reached, around⟩

/-- A way through the graph that comes back to a macro which it has passed. -/
structure Loop (scan : Scan) (chain : List String) (name : String) : Prop where
  path : List.IsChain scan.Calls (chain ++ [name])
  distinct : chain.Nodup
  again : name ∈ chain

theorem Loop.cyclic {chain : List String} {name : String} (loop : scan.Loop chain name)
    (starts : [a] <+: chain ++ [name]) : scan.Cyclic a := by
  obtain ⟨before, between, rfl⟩ := List.append_of_mem loop.again
  have path := loop.path
  rw [List.append_assoc, List.cons_append, List.isChain_split] at path
  obtain ⟨there, around⟩ := path
  refine ⟨name, ?_, ?_⟩
  · cases before with
    | nil =>
      obtain rfl : a = name := by simpa using starts
      exact .refl
    | cons first rest =>
      obtain rfl : a = first := by simpa using starts
      exact List.relationReflTransGen_of_exists_isChain_cons _ there (by simp)
  · cases between with
    | nil => exact .single (List.isChain_cons_cons.mp around).1
    | cons next rest =>
      obtain ⟨calls, back⟩ := List.isChain_cons_cons.mp around
      exact .head' calls (List.relationReflTransGen_of_exists_isChain_cons _ back (by simp))

end Scan

namespace Pass

variable {σ : Type} {c : Context σ} {tree : Tree}

/-! ## Calls that can be replaced -/

theorem Context.name_of_key {d d' : Definition} (same : c.key d = c.key d') : d.name = d'.name := by
  unfold key at same
  cases policy : c.settings.cachePolicy with
  | name =>
    rw [policy] at same
    exact CacheKey.name.inj same
  | content =>
    rw [policy] at same
    exact (CacheKey.content.inj same).1
  | file =>
    rw [policy] at same
    exact (CacheKey.file.inj same).2

/-- What the walk relies on: macros run and give expressions, and the calls of the file nest. -/
structure Sound (c : Context σ) (tree : Tree) : Prop where
  found : ∃ path directive, Scan.Found ⟨path, directive, c.source.lines⟩ tree c.scan
  labelled : tree.Labelled
  nested : tree.Nested c.source
  succeeds : ∀ call world, ∃ text result, (c.execute call world).outcome = .ok text ∧
    parseExpression text = .ok result

theorem fault_of_unreplaced {r : Rewriting} {site : CallSite} {text : Text} {e : ExpansionError}
    (isNew : ∀ x ∈ r.expansions, x.site.label ≠ site.label) (refused : r.expand site text = .error e) :
    ∃ f, e = .fault f ∧ parseExpression text = .error f := by
  unfold Rewriting.expand at refused
  split at refused
  · rename_i again
    obtain ⟨x, member, same⟩ := List.any_eq_true.mp again
    exact absurd (by simpa using same) (isNew x member)
  · cases parsed : parseExpression text with
    | error f =>
      rw [parsed] at refused
      cases refused
      exact ⟨f, rfl, rfl⟩
    | ok result =>
      rw [parsed] at refused
      cases refused

/-- Some calls of a file are replaced, others are to follow. -/
structure Begun (c : Context σ) (tree : Tree) (r : Rewriting) (sites : List CallSite) : Prop where
  edits : ∀ e ∈ r.edits, ∃ call ∈ tree.nodes, e.Replaces c.source.lines call
  calls : ∀ site ∈ sites, ∃ call ∈ tree.nodes, site.Of c.source.lines call
  known : ∀ site ∈ sites, ∃ d, c.scan.definition? site.name = some d
  distinct : (sites.map CallSite.label).Nodup
  others : ∀ e ∈ r.expansions, ∀ site ∈ sites, e.site.label ≠ site.label

namespace Begun

variable {r r' : Rewriting} {site : CallSite} {rest : List CallSite} {text : Text} {edit : Edit}

theorem next (begun : Begun c tree r (site :: rest)) (replaced : r.expand site text = .ok (r', edit)) :
    Begun c tree r' rest := by
  obtain ⟨result, -, rfl, -, rfl⟩ := expand_eq_ok replaced
  obtain ⟨isNew, distinct⟩ := List.nodup_cons.mp begun.distinct
  refine ⟨?_, fun s member => begun.calls s (.tail _ member), fun s member => begun.known s (.tail _ member),
    distinct, ?_⟩
  · intro e member
    rcases List.mem_append.mp member with before | last
    · exact begun.edits e before
    · obtain rfl := List.mem_singleton.mp last
      obtain ⟨call, inside, ofCall⟩ := begun.calls site (.head _)
      refine ⟨call, inside, ofCall.isCall, ?_, ?_⟩ <;> simp [editOf, ofCall.span]
  · intro e member other isLater same
    rcases List.mem_append.mp member with before | last
    · exact begun.others e before other (.tail _ isLater) same
    · obtain rfl := List.mem_singleton.mp last
      exact isNew (List.mem_map.mpr ⟨other, isLater, same.symm⟩)

theorem fault_of_refused (begun : Begun c tree r (site :: rest)) {e : ExpansionError}
    (refused : r.expand site text = .error e) : ∃ f, e = .fault f ∧ parseExpression text = .error f :=
  fault_of_unreplaced (fun e member => begun.others e member site (.head _)) refused

/-- An expression can take the place of the next call. -/
theorem not_refused (begun : Begun c tree r (site :: rest)) {result : Tree}
    (parsed : parseExpression text = .ok result) {e : ExpansionError} :
    r.expand site text ≠ .error e := by
  intro refused
  obtain ⟨f, -, unparsed⟩ := begun.fault_of_refused refused
  cases parsed.symm.trans unparsed

end Begun

/-! ## The walk -/

/-- The macros in the chain are on a way through the graph that goes on to a name. -/
structure OnWay (c : Context σ) (chain : List String) (name : String) : Prop where
  path : List.IsChain c.scan.Calls (chain ++ [name])
  distinct : chain.Nodup
  macros : chain ⊆ c.scan.definitions.map Definition.name

theorem OnWay.next {chain : List String} {d : Definition} {site : CallSite} (way : OnWay c chain d.name)
    (isNew : d.name ∉ chain) (isDefinition : d ∈ c.scan.definitions) (isCall : site ∈ d.calls) :
    OnWay c (chain ++ [d.name]) site.name := by
  refine ⟨?_, ?_, ?_⟩
  · refine List.isChain_append.mpr ⟨way.path, List.isChain_singleton _, ?_⟩
    intro last isLast first isFirst
    obtain rfl : d.name = last := by simpa using isLast
    obtain rfl : site.name = first := by simpa using isFirst
    exact ⟨d, isDefinition, rfl, site, isCall, rfl⟩
  · exact way.distinct.append (List.nodup_singleton _) (List.disjoint_singleton.mpr isNew)
  · intro name member
    rcases List.mem_append.mp member with before | last
    · exact way.macros before
    · obtain rfl := List.mem_singleton.mp last
      exact List.mem_map.mpr ⟨d, isDefinition, rfl⟩

theorem OnWay.again {chain : List String} {d : Definition} (way : OnWay c chain d.name)
    (isDefinition : d ∈ c.scan.definitions)
    (again : d.name ∈ chain ∨ c.scan.definitions.length ≤ chain.length) : d.name ∈ chain := by
  rcases again with again | full
  · exact again
  · have all := (way.distinct.subperm way.macros).perm_of_length_le (by simpa using full)
    exact all.mem_iff.mpr (List.mem_map.mpr ⟨d, isDefinition, rfl⟩)

/-- Stored results are expressions of macros that lead to no cycle, and only macros of the chain are
being computed. -/
structure Settled (c : Context σ) (chain : List String) (t : Trail) : Prop where
  stored : ∀ d ∈ c.scan.definitions, ∀ text, t.cache.get? (c.key d) = some text →
    (∃ result, parseExpression text = .ok result) ∧ ¬ c.scan.Cyclic d.name
  computed : ∀ d ∈ c.scan.definitions, t.cache.ticket? (c.key d) ≠ none → d.name ∈ chain

def NamesLoop (c : Context σ) (chain : List String) (name : String) (e : PassError) : Prop :=
  ∃ d ∈ c.scan.definitions, ∃ way, e = cycle d way ∧ c.scan.Loop way d.name ∧
    chain ++ [name] <+: way ++ [d.name]

theorem NamesLoop.outer {chain : List String} {name next : String} {e : PassError}
    (loop : NamesLoop c (chain ++ [name]) next e) : NamesLoop c chain name e := by
  obtain ⟨d, isDefinition, way, isCycle, loop, starts⟩ := loop
  exact ⟨d, isDefinition, way, isCycle, loop, (List.prefix_append _ _).trans starts⟩

theorem Settled.claim {chain : List String} {t : Trail} {d : Definition} (settled : Settled c chain t)
    (absent : t.cache.get? (c.key d) = none) (free : t.cache.ticket? (c.key d) = none) :
    Settled c (chain ++ [d.name]) { t with cache := (t.cache.claim (c.key d)).1 } := by
  refine ⟨fun d' isDefinition text found => settled.stored d' isDefinition text (by simpa using found),
    fun d' isDefinition busy => ?_⟩
  rw [ne_eq, Cache.ticket?_claim absent free, not_and_or, not_not] at busy
  rcases busy with before | same
  · exact List.mem_append_left _ (settled.computed d' isDefinition before)
  · exact List.mem_append_right _ (List.mem_singleton.mpr (Context.name_of_key same))

theorem Settled.stored_put {chain : List String} {u : Trail} {d : Definition} {text : Text}
    (settled : Settled c chain u) {result : Tree} (parsed : parseExpression text = .ok result)
    (acyclic : ¬ c.scan.Cyclic d.name) :
    ∀ d' ∈ c.scan.definitions, ∀ text', (u.cache.settle (c.key d) text).1.get? (c.key d') = some text' →
      (∃ result, parseExpression text' = .ok result) ∧ ¬ c.scan.Cyclic d'.name := by
  intro d' isDefinition text' found
  rw [Cache.settle_eq, Cache.get?_release, Cache.get?_put] at found
  cases before : u.cache.get? (c.key d') with
  | some stored =>
    rw [before] at found
    cases found
    exact settled.stored d' isDefinition text' before
  | none =>
    rw [before, Option.none_or] at found
    split at found
    · rename_i same
      cases found
      exact ⟨⟨result, parsed⟩, Context.name_of_key same ▸ acyclic⟩
    · cases found

theorem Settled.later {chain : List String} {may : String → Prop} {t u : Trail}
    {new : List Invocation} (settled : Settled c chain t) (adds : Adds c may t u new)
    (stored : ∀ d ∈ c.scan.definitions, ∀ text, u.cache.get? (c.key d) = some text →
      (∃ result, parseExpression text = .ok result) ∧ ¬ c.scan.Cyclic d.name) :
    Settled c chain u := by
  refine ⟨stored, fun d isDefinition busy => settled.computed d isDefinition ?_⟩
  rwa [adds.ticket?] at busy

theorem Sound.definition_unique (sound : Sound c tree) {d d' : Definition}
    (isDefinition : d ∈ c.scan.definitions) (isDefinition' : d' ∈ c.scan.definitions)
    (same : d.name = d'.name) : d = d' := by
  obtain ⟨path, directive, found⟩ := sound.found
  exact List.inj_on_of_nodup_map found.distinct isDefinition isDefinition' same

theorem Sound.not_cyclic (sound : Sound c tree) {d : Definition} (isDefinition : d ∈ c.scan.definitions)
    (none : ∀ site ∈ d.calls, ¬ c.scan.Cyclic site.name) : ¬ c.scan.Cyclic d.name := by
  intro cyclic
  obtain ⟨b, ⟨d', isDefinition', same, site, isCall, rfl⟩, further⟩ := cyclic.exists_call
  obtain rfl := sound.definition_unique isDefinition' isDefinition same
  exact none site isCall further

theorem Begun.start {path directive : Text}
    (found : Scan.Found ⟨path, directive, c.source.lines⟩ tree c.scan) (labelled : tree.Labelled)
    {sites : List CallSite} (recorded : sites = c.scan.sites ∨ ∃ d ∈ c.scan.definitions, sites = d.calls) :
    Begun c tree {} sites := by
  have each : ∀ site ∈ sites,
      site ∈ c.scan.sites ∨ ∃ d ∈ c.scan.definitions, site ∈ d.calls := by
    intro site member
    rcases recorded with rfl | ⟨d, isDefinition, rfl⟩
    · exact .inl member
    · exact .inr ⟨d, isDefinition, member⟩
  obtain ⟨outside, inside⟩ := found.labels_distinct labelled
  refine ⟨by simp, fun site member => found.site_of (each site member),
    fun site member => found.known (each site member), ?_, by simp⟩
  rcases recorded with rfl | ⟨d, isDefinition, rfl⟩
  · exact outside
  · exact inside d isDefinition

theorem Sound.begin (sound : Sound c tree) {sites : List CallSite}
    (recorded : sites = c.scan.sites ∨ ∃ d ∈ c.scan.definitions, sites = d.calls) :
    Begun c tree {} sites := by
  obtain ⟨path, directive, found⟩ := sound.found
  exact .start found sound.labelled recorded

mutual

/-- Getting the result of a macro succeeds without a cycle, or names one. -/
theorem Expands.exact {chain : List String} {d : Definition} {site : CallSite} {arguments : Text}
    {t u : Trail} {result : Except PassError Text} (sound : Sound c tree)
    (expands : Expands c chain d site arguments t result u) (isDefinition : d ∈ c.scan.definitions)
    (way : OnWay c chain d.name) (settled : Settled c chain t) :
    (∃ text, result = .ok text ∧ (∃ parsed, parseExpression text = .ok parsed) ∧
      ¬ c.scan.Cyclic d.name ∧ Settled c chain u) ∨
    ∃ e, result = .error e ∧ NamesLoop c chain d.name e :=
  match expands with
  | .cycle again =>
    .inr ⟨_, rfl, d, isDefinition, chain, rfl,
      ⟨way.path, way.distinct, way.again isDefinition again⟩, List.prefix_rfl⟩
  | .hit _ found =>
    let ⟨parsed, acyclic⟩ := settled.stored d isDefinition _ found
    .inl ⟨_, rfl, parsed, acyclic, settled⟩
  | .waits isNew _ busy => absurd (settled.computed d isDefinition (by simp [busy])) isNew
  | .breaks _ _ _ _ ran => by
      obtain ⟨text, _, succeeded, -⟩ := sound.succeeds _ _
      cases ran.symm.trans succeeded
  | .fails isNew absent free body => by
      have inner := body.exact sound (sound.begin (.inr ⟨d, isDefinition, rfl⟩))
        (fun _ isCall => way.next isNew isDefinition isCall) (settled.claim absent free)
      obtain ⟨_, same, -⟩ | ⟨e, same, site, -, loop⟩ := inner
      · cases same
      · cases same
        exact .inr ⟨_, rfl, loop.outer⟩
  | .runs isNew absent free body ran => by
      have inner := body.exact sound (sound.begin (.inr ⟨d, isDefinition, rfl⟩))
        (fun _ isCall => way.next isNew isDefinition isCall) (settled.claim absent free)
      obtain ⟨_, -, acyclic, before⟩ | ⟨_, same, -⟩ := inner
      · have acyclic := sound.not_cyclic isDefinition acyclic
        have whole : Expands c chain d site arguments t _ _ := .runs isNew absent free body ran
        obtain ⟨new, adds, isStored⟩ := whole.adds isDefinition
        obtain ⟨text, result, succeeded, parsed⟩ := sound.succeeds _ _
        cases ran.symm.trans succeeded
        have after := settled.later adds (before.stored_put parsed acyclic)
        exact .inl ⟨_, rfl, (after.stored d isDefinition _ (isStored _ rfl).1).1, acyclic, after⟩
      · cases same

/-- Replacing calls succeeds without a cycle, or names one. -/
theorem ExpandsAll.exact {chain : List String} {r : Rewriting} {sites : List CallSite} {t u : Trail}
    {result : Except PassError Rewriting} (sound : Sound c tree)
    (expands : ExpandsAll c chain r sites t result u) (begun : Begun c tree r sites)
    (ways : ∀ site ∈ sites, OnWay c chain site.name) (settled : Settled c chain t) :
    (∃ r', result = .ok r' ∧ (∀ site ∈ sites, ¬ c.scan.Cyclic site.name) ∧ Settled c chain u) ∨
    ∃ e, result = .error e ∧ ∃ site ∈ sites, NamesLoop c chain site.name e :=
  match expands with
  | .done => .inl ⟨_, rfl, by simp, settled⟩
  | .skips unknown _ => by
      obtain ⟨d, known⟩ := begun.known _ (.head _)
      cases unknown.symm.trans known
  | .stops _ unwritten => by
      obtain ⟨call, inside, ofCall⟩ := begun.calls _ (.head _)
      obtain ⟨text, written⟩ := sound.nested.splice begun.edits inside ofCall
      cases unwritten.symm.trans written
  | .fails known _ call => by
      obtain ⟨isDefinition, isNamed⟩ := Scan.definition?_eq_some known
      have ended := call.exact sound isDefinition (isNamed ▸ ways _ (.head _)) settled
      obtain ⟨_, same, -⟩ | ⟨e, same, loop⟩ := ended
      · cases same
      · cases same
        exact .inr ⟨_, rfl, _, .head _, isNamed ▸ loop⟩
  | .refuses known _ call refused => by
      obtain ⟨isDefinition, isNamed⟩ := Scan.definition?_eq_some known
      have ended := call.exact sound isDefinition (isNamed ▸ ways _ (.head _)) settled
      obtain ⟨_, same, ⟨_, parsed⟩, -⟩ | ⟨_, same, -⟩ := ended
      · cases same
        exact absurd refused (begun.not_refused parsed)
      · cases same
  | .replaces known _ call replaced next => by
      obtain ⟨isDefinition, isNamed⟩ := Scan.definition?_eq_some known
      have ended := call.exact sound isDefinition (isNamed ▸ ways _ (.head _)) settled
      obtain ⟨_, -, -, acyclic, settled⟩ | ⟨_, same, -⟩ := ended
      · have others := next.exact sound (begun.next replaced)
          (fun site member => ways site (.tail _ member)) settled
        obtain ⟨r', same, acyclics, settled⟩ | ⟨e, same, site, member, loop⟩ := others
        · exact .inl ⟨r', same, List.forall_mem_cons.mpr ⟨isNamed ▸ acyclic, acyclics⟩, settled⟩
        · exact .inr ⟨e, same, site, .tail _ member, loop⟩
      · cases same

end

theorem finish_ne_cycle {path : Text} {r : Rewriting} {d : Definition} {chain : List String} :
    finish c path tree r ≠ .error (cycle d chain) := by
  intro failed
  obtain ⟨f, isEmit⟩ := finish_error failed
  simp [cycle] at isEmit

theorem unchanged_ne_cycle {settings : Settings} {source path : Text} {d : Definition}
    {chain : List String} : unchanged settings source path tree ≠ .error (cycle d chain) := by
  intro failed
  obtain ⟨f, isEmit⟩ := unchanged_error failed
  simp [cycle] at isEmit

theorem scanned_ne_cycle {settings : Settings} {source path : Text} {d : Definition}
    {chain : List String} : scanned settings source path ≠ .error (cycle d chain) := by
  intro failed
  rcases scanned_error failed with ⟨f, isFault⟩ | ⟨f, isScan⟩
  · simp [cycle] at isFault
  · simp [cycle] at isScan

theorem labelled_of_scanned {settings : Settings} {source path : Text} {scan : Scan}
    (isScanned : scanned settings source path = .ok (tree, scan)) : tree.Labelled := by
  unfold scanned at isScanned
  split at isScanned
  · cases isScanned
  · rename_i parsed
    split at isScanned
    · cases isScanned
    · cases isScanned
      exact labelled_of_parseModule parsed

/-- A pass over a file in which no call leads to a cycle reports none, and any other pass names one. -/
theorem expandMacros_cycles {settings : Settings} {execute : Executor σ} {source path : Text}
    {scan : Scan} {s : PassState σ} (isScanned : scanned settings source path = .ok (tree, scan))
    (sound : Sound ⟨settings, execute, source, source.lines, scan⟩ tree)
    (settled : Settled ⟨settings, execute, source, source.lines, scan⟩ [] s.trail) :
    let ended := (expandMacros settings execute source path).outcome s
    ((∀ site ∈ scan.sites, ¬ scan.Cyclic site.name) ∧
      ∀ d chain, ended.1 ≠ .error (cycle d chain)) ∨
    ∃ e, ended.1 = .error e ∧ ∃ site ∈ scan.sites,
      NamesLoop ⟨settings, execute, source, source.lines, scan⟩ [] site.name e := by
  intro ended
  have pass := expandMacros_expands settings execute source path s
  rw [isScanned] at pass
  obtain ⟨noMacros, plain, -⟩ | ⟨-, replaced, all, result⟩ := pass
  · have noSites : scan.sites = [] := by
      rw [(found_of_scanned isScanned).sites]
      exact Scan.CallContext.callsOf_uses_nil (by simp [Scan.outerCalls, noMacros]) _ _
    exact .inl ⟨by simp [noSites], fun d chain failed => unchanged_ne_cycle (plain.symm.trans failed)⟩
  · have ways : ∀ site ∈ scan.sites,
        OnWay ⟨settings, execute, source, source.lines, scan⟩ [] site.name :=
      fun site _ => ⟨List.isChain_singleton _, List.nodup_nil, List.nil_subset _⟩
    obtain ⟨r, rfl, acyclic, -⟩ | ⟨e, rfl, loop⟩ :=
      all.exact sound (sound.begin (.inl rfl)) ways settled
    · exact .inl ⟨acyclic, fun d chain failed => finish_ne_cycle (result.symm.trans failed)⟩
    · exact .inr ⟨e, result, loop⟩

end Pass

open Pass in
/-- If every run gives an expression, the calls of the file nest and no result of the file is stored or
being computed, then a pass reports a cycle exactly if a call outside the macros leads to one.  What
it reports is a way through the call graph from a called macro to the first name that comes again. -/
theorem cycle_reported_iff {σ : Type} (settings : Settings) (execute : Executor σ) (source path : Text)
    (s : PassState σ)
    (succeeds : ∀ call world, ∃ text result, (execute call world).outcome = .ok text ∧
      parseExpression text = .ok result)
    (nested : ∀ tree scan, scanned settings source path = .ok (tree, scan) → tree.Nested source)
    (fresh : ∀ tree scan, scanned settings source path = .ok (tree, scan) → ∀ d ∈ scan.definitions,
      s.cache.get? (d.cacheKey settings.cachePolicy) = none ∧
        s.cache.ticket? (d.cacheKey settings.cachePolicy) = none) :
    let ended := (expandMacros settings execute source path).run.run s
    ((∃ d chain, ended.1 = .error (cycle d chain)) ↔
      ∃ tree scan, scanned settings source path = .ok (tree, scan) ∧
        ∃ site ∈ scan.sites, scan.Cyclic site.name) ∧
    ((∃ d chain, ended.1 = .error (cycle d chain)) →
      ∃ tree scan, scanned settings source path = .ok (tree, scan) ∧
        ∃ d ∈ scan.definitions, ∃ chain, ended.1 = .error (cycle d chain) ∧
          List.IsChain scan.Calls (chain ++ [d.name]) ∧
          (∃ site ∈ scan.sites, (chain ++ [d.name]).head? = some site.name) ∧
          chain.Nodup ∧ d.name ∈ chain) := by
  intro ended
  have pass := expandMacros_expands settings execute source path s
  cases isScanned : scanned settings source path with
  | error e =>
    rw [isScanned] at pass
    have none : ¬ ∃ d chain, ended.1 = .error (cycle d chain) := by
      rintro ⟨d, chain, failed⟩
      cases pass.1.symm.trans failed
      exact scanned_ne_cycle isScanned
    exact ⟨⟨fun reported => absurd reported none, by simp⟩, fun reported => absurd reported none⟩
  | ok file =>
    obtain ⟨tree, scan⟩ := file
    have sound : Sound ⟨settings, execute, source, source.lines, scan⟩ tree :=
      ⟨⟨_, _, found_of_scanned isScanned⟩, labelled_of_scanned isScanned, nested tree scan isScanned,
        succeeds⟩
    have settled : Settled ⟨settings, execute, source, source.lines, scan⟩ [] s.trail := by
      refine ⟨fun d isDefinition text found => ?_, fun d isDefinition busy => ?_⟩
      · cases found.symm.trans (fresh tree scan isScanned d isDefinition).1
      · exact absurd (fresh tree scan isScanned d isDefinition).2 busy
    obtain ⟨acyclic, none⟩ | ⟨e, failed, site, isSite, loop⟩ := expandMacros_cycles isScanned sound settled
    · have none : ¬ ∃ d chain, ended.1 = .error (cycle d chain) :=
        fun ⟨d, chain, failed⟩ => none d chain failed
      refine ⟨⟨fun reported => absurd reported none, ?_⟩, fun reported => absurd reported none⟩
      rintro ⟨_, _, same, site, isSite, cyclic⟩
      cases same
      exact absurd cyclic (acyclic site isSite)
    · obtain ⟨d, isDefinition, way, rfl, loop, starts⟩ := loop
      refine ⟨⟨fun _ => ⟨tree, scan, rfl, site, isSite, loop.cyclic starts⟩, fun _ => ⟨d, way, failed⟩⟩,
        fun _ => ⟨tree, scan, rfl, d, isDefinition, way, failed, loop.path, ⟨site, isSite, ?_⟩,
          loop.distinct, loop.again⟩⟩
      obtain ⟨rest, same⟩ := starts
      rw [← same]
      rfl

/-- Two macros that call each other, and a call of one of them. -/
def mutualMacros : Text := chars ("def f():\n    'use macro'\n    return g()\n" ++
  "def g():\n    'use macro'\n    return [f(), 2]\nx = f()\n")

open Pass in
theorem mutualMacros_reported :
    let execute : Executor Unit := fun _ world => ⟨.ok ['1'], [], world⟩
    ∃ d chain, ((expandMacros {} execute mutualMacros (chars "m.py")).run.run { world := () }).1 =
      .error (cycle d chain) := by
  intro execute
  obtain ⟨⟨tree, scan⟩, isScanned, nested, sites, graph⟩ :
      ∃ file, scanned {} mutualMacros (chars "m.py") = .ok file ∧ file.1.Nested mutualMacros ∧
        file.2.sites.map CallSite.name = ["f"] ∧
        file.2.definitions.map (fun d => (d.name, d.calls.map CallSite.name)) =
          [("f", ["g"]), ("g", ["f"])] := by
    rw [show mutualMacros = _ from chars_append _ _]
    decide +kernel
  obtain ⟨number, parsed, -⟩ : ∃ number, parseExpression ['1'] = .ok number ∧
      number.kind = .constant (.int 1) false := by
    decide +kernel
  have edge : ∀ a b, (a, [b]) ∈ [("f", ["g"]), ("g", ["f"])] → scan.Calls a b := by
    intro a b member
    rw [← graph] at member
    obtain ⟨d, isDefinition, same⟩ := List.mem_map.mp member
    obtain ⟨isNamed, calls⟩ := Prod.mk.inj same
    have called : b ∈ d.calls.map CallSite.name := by simp [calls]
    exact ⟨d, isDefinition, isNamed, List.mem_map.mp called⟩
  have cyclic : scan.Cyclic "f" :=
    ⟨"f", .refl, .tail (.single (edge "f" "g" (by simp))) (edge "g" "f" (by simp))⟩
  obtain ⟨site, isSite, isNamed⟩ : ∃ site ∈ scan.sites, site.name = "f" :=
    List.mem_map.mp (by simp [sites])
  refine (cycle_reported_iff {} execute mutualMacros (chars "m.py") { world := () }
    (fun _ _ => ⟨['1'], number, rfl, parsed⟩) (fun tree' scan' again => ?_)
    (fun _ _ _ _ _ => ⟨rfl, rfl⟩)).1.mpr ⟨tree, scan, isScanned, site, isSite, isNamed ▸ cyclic⟩
  cases isScanned.symm.trans again
  exact nested

end MacroExpand
