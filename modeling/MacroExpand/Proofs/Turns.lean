import MacroExpand.Proofs.Ledger
import MacroExpand.Proofs.Finding
import Mathlib.Data.Fintype.Card
import Mathlib.Order.WellFounded

/-!
# Passes in turns

Any number of passes over any files share a cache and take their steps in any order.  What is left of a
pass goes with a standing, and each step of a pass is at most one step of its standing, so what holds of
standings holds of passes in turns.
-/

set_option autoImplicit false

namespace MacroExpand

/-- A cache, what is left of the passes that share it, the published outcomes of tickets, and who was
given each ticket. -/
structure Passes (ι : Type) where
  cache : Cache CacheKey Text := {}
  script : ι → PassScript PassError Expanded
  published : Nat → Option (Except PassError Text) := fun _ => none
  owner : Nat → Option ι := fun _ => none

namespace Passes

variable {ι : Type} [DecidableEq ι]

/-- One step of some pass.  How a run ends, and when, is up to the macro. -/
inductive Step : Passes ι → Passes ι → Prop where
  | reports {s : Passes ι} {i : ι} {entries : List LogEntry} {rest : PassScript PassError Expanded}
      (here : s.script i = .report entries rest) :
      Step s { s with script := Function.update s.script i rest }
  | asks {s : Passes ι} {i : ι} {key : CacheKey} {rest : Claim Text → PassScript PassError Expanded}
      (here : s.script i = .claim key rest) :
      Step s
        { s with
          cache := (s.cache.claim key).1
          script := Function.update s.script i (rest (s.cache.claim key).2)
          owner := if (s.cache.claim key).2 = .own s.cache.issued then
              Function.update s.owner s.cache.issued (some i) else s.owner }
  | receives {s : Passes ι} {i : ι} {key : CacheKey} {ticket : Nat}
      {rest : Except PassError Text → PassScript PassError Expanded} {outcome : Except PassError Text}
      (here : s.script i = .await key ticket rest) (known : s.published ticket = some outcome) :
      Step s { s with script := Function.update s.script i (rest outcome) }
  /-- The pass is cancelled while it waits. -/
  | leaves {s : Passes ι} {i : ι} {key : CacheKey} {ticket : Nat}
      {rest : Except PassError Text → PassScript PassError Expanded} (here : s.script i = .await key ticket rest)
      (error : PassError) : Step s { s with script := Function.update s.script i (rest (.error error)) }
  | runs {s : Passes ι} {i : ι} {call : Invocation} {rest : Except PassError Text → PassScript PassError Expanded}
      (here : s.script i = .run call rest) (outcome : Except PassError Text) :
      Step s { s with script := Function.update s.script i (rest outcome) }
  | settles {s : Passes ι} {i : ι} {key : CacheKey} {ticket : Nat} {value : Text}
      {rest : Text → PassScript PassError Expanded} (here : s.script i = .settle key ticket value rest) :
      Step s { s with cache := (s.cache.settle key value).1
                      script := Function.update s.script i (rest (s.cache.settle key value).2) }
  | withdraws {s : Passes ι} {i : ι} {key : CacheKey} {ticket : Nat} {error : PassError}
      {rest : PassScript PassError Expanded} (here : s.script i = .release key ticket error rest) :
      Step s { s with cache := s.cache.release key, script := Function.update s.script i rest }
  | publishes {s : Passes ι} {i : ι} {key : CacheKey} {ticket : Nat} {outcome : Except PassError Text}
      {rest : PassScript PassError Expanded} (here : s.script i = .publish key ticket outcome rest) :
      Step s { s with published := Function.update s.published ticket (some outcome)
                      script := Function.update s.script i rest }

/-- Steps of passes in some order. -/
abbrev Run : Passes ι → Passes ι → Prop := Relation.ReflTransGen Step

/-- All passes are about to begin, each over a source text with a path. -/
structure Initial (settings : Settings) (file : ι → Text × Text) (s : Passes ι) : Prop where
  scripts : ∀ i, s.script i = Script.expandMacros settings id (file i).1 (file i).2
  noComputation : s.cache.inflight = []
  unpublished : ∀ ticket, s.published ticket = none
  noOwner : ∀ ticket, s.owner ticket = none

end Passes

/-! ## Scripts and standings -/

namespace Script

variable {α β : Type} {policy : CachePolicy} {scan : Scan}

def Keeps (policy : CachePolicy) (scan : Scan) (exit : Standing → Except PassError α → Prop) :
    Standing → PassScript PassError α → Prop
  | p, .done result => exit p result
  | p, .report _ rest => rest.Keeps policy scan exit p
  | p, .claim key rest => p.errand = .idle ∧ ∃ d, key = d.cacheKey policy ∧ p.Next scan d ∧
      (∀ value, (rest (.hit value)).Keeps policy scan exit p.pass) ∧
      (∀ ticket, (rest (.wait ticket)).Keeps policy scan exit { p with errand := .waiting key ticket }) ∧
      ∀ ticket, (rest (.own ticket)).Keeps policy scan exit { p with owned := p.owned ++ [(d, ticket)] }
  | p, .await key ticket rest => p.errand = .waiting key ticket ∧ ∃ d, key = d.cacheKey policy ∧
      p.Next scan d ∧ (∀ value, (rest (.ok value)).Keeps policy scan exit { p.pass with errand := .idle }) ∧
      ∀ error, (rest (.error error)).Keeps policy scan exit { p with errand := .idle }
  | p, .run _ rest => ∀ outcome, (rest outcome).Keeps policy scan exit p
  | p, .settle key ticket _ rest => p.errand = .idle ∧ ∃ outer d, p.owned = outer ++ [(d, ticket)] ∧
      key = d.cacheKey policy ∧ ∀ stored, (rest stored).Keeps policy scan exit
        { ({ p with owned := outer } : Standing).pass with errand := .closing key ticket (.ok stored) }
  | p, .release key ticket error rest => p.errand = .idle ∧ ∃ outer d, p.owned = outer ++ [(d, ticket)] ∧
      key = d.cacheKey policy ∧ rest.Keeps policy scan exit
        { p with owned := outer, errand := .closing key ticket (.error error) }
  | p, .publish key ticket outcome rest => p.errand = .closing key ticket outcome ∧
      rest.Keeps policy scan exit { p with errand := .idle }

theorem Keeps.andThen {exit : Standing → Except PassError α → Prop}
    {exit' : Standing → Except PassError β → Prop} {script : PassScript PassError α}
    {next : Except PassError α → PassScript PassError β} {p : Standing} (keeps : script.Keeps policy scan exit p)
    (goesOn : ∀ q result, exit q result → (next result).Keeps policy scan exit' q) :
    (script.andThen next).Keeps policy scan exit' p := by
  induction script generalizing p with
  | done result => exact goesOn p result keeps
  | report entries rest ih => exact ih keeps
  | claim key rest ih =>
    obtain ⟨idle, d, isKey, asks, hit, wait, own⟩ := keeps
    exact ⟨idle, d, isKey, asks, fun value => ih _ (hit value), fun ticket => ih _ (wait ticket),
      fun ticket => ih _ (own ticket)⟩
  | await key ticket rest ih =>
    obtain ⟨waiting, d, isKey, asks, ok, error⟩ := keeps
    exact ⟨waiting, d, isKey, asks, fun value => ih _ (ok value), fun e => ih _ (error e)⟩
  | run call rest ih => exact fun outcome => ih _ (keeps outcome)
  | settle key ticket value rest ih =>
    obtain ⟨idle, outer, d, owned, isKey, stored⟩ := keeps
    exact ⟨idle, outer, d, owned, isKey, fun value => ih _ (stored value)⟩
  | release key ticket error rest ih =>
    obtain ⟨idle, outer, d, owned, isKey, rests⟩ := keeps
    exact ⟨idle, outer, d, owned, isKey, ih rests⟩
  | publish key ticket outcome rest ih => exact ⟨keeps.1, ih keeps.2⟩

def Ends (p q : Standing) : Standing → Except PassError α → Prop
  | r, .ok _ => r = q
  | r, .error _ => r = p

theorem Keeps.bind {p q : Standing} {exit : Standing → Except PassError β → Prop} {script : PassScript PassError α}
    {next : α → PassScript PassError β} (keeps : script.Keeps policy scan (Ends p q) p)
    (goesOn : ∀ a, (next a).Keeps policy scan exit q) (fails : ∀ e, exit p (.error e)) :
    (script.bind next).Keeps policy scan exit p := by
  refine keeps.andThen fun r result ends => ?_
  cases result with
  | ok a =>
    cases ends
    exact goesOn a
  | error e =>
    cases ends
    exact fails e

theorem keeps_cached {p : Standing} {d : Definition} {shown : Text} {compute : PassScript PassError Text}
    (idle : p.errand = .idle) (next : p.Next scan d)
    (keeps : ∀ ticket, let q : Standing := { p with owned := p.owned ++ [(d, ticket)] }
      compute.Keeps policy scan (Ends q q) q) :
    (cached shown (d.cacheKey policy) compute).Keeps policy scan (Ends p p.pass) p := by
  have back : ({ p with errand := .idle } : Standing) = p := by rw [← idle]
  refine ⟨idle, d, rfl, next, fun value => rfl, fun ticket => ?_, fun ticket => ?_⟩
  · refine ⟨rfl, d, rfl, next.congr rfl rfl, fun value => ?_, fun e => back⟩
    change ({ p.pass with errand := .idle } : Standing) = p.pass
    rw [← Standing.pass_errand p] at idle
    rw [← idle]
  · refine (keeps ticket).andThen fun r result ends => ?_
    cases result with
    | ok text =>
      cases ends
      refine ⟨idle, p.owned, d, rfl, rfl, fun stored => ⟨rfl, ?_⟩⟩
      change ({ p.pass with errand := .idle } : Standing) = p.pass
      rw [← Standing.pass_errand p] at idle
      rw [← idle]
    | error e =>
      cases ends
      exact ⟨idle, p.owned, d, rfl, rfl, rfl, back⟩

def Over (p : Standing) (_ : Except PassError α) : Prop := p.owned = [] ∧ p.errand = .idle

section Expanding

variable {c : Context PassError} {result : Definition → CallSite → Text → PassScript PassError Text}

theorem keeps_expandSites_inner {p : Standing} (sites : List CallSite) (r : Rewriting)
    (keeps : ∀ site ∈ sites, ∀ callee, c.scan.definition? site.name = some callee → ∀ arguments,
      (result callee site arguments).Keeps policy c.scan (Ends p p) p) :
    (expandSites c result r sites).Keeps policy c.scan (Ends p p) p := by
  induction sites generalizing r with
  | nil => rfl
  | cons site rest ih =>
    rw [expandSites]
    split
    · exact ih r fun site member => keeps site (.tail _ member)
    · rename_i callee called
      split
      · rfl
      · rename_i arguments written
        refine (keeps site (.head _) callee called arguments).bind (fun text => ?_) fun e => rfl
        split
        · rfl
        · exact ih _ fun site member => keeps site (.tail _ member)

theorem keeps_expandSites {p : Standing} (sites : List CallSite) (r : Rewriting) (outermost : p.owned = [])
    (idle : p.errand = .idle) (todo : p.todo = sites.filterMap fun site => c.scan.definition? site.name)
    (keeps : ∀ (q : Standing) (site : CallSite) callee later, q.owned = [] → q.errand = .idle →
      q.todo = callee :: later → c.scan.definition? site.name = some callee → ∀ arguments,
      (result callee site arguments).Keeps policy c.scan (Ends q q.pass) q) :
    (expandSites c result r sites).Keeps policy c.scan Over p := by
  induction sites generalizing r p with
  | nil => exact ⟨outermost, idle⟩
  | cons site rest ih =>
    rw [expandSites]
    split
    · rename_i unknown
      exact ih r outermost idle (by simpa [unknown] using todo)
    · rename_i callee called
      have todo : p.todo = callee :: rest.filterMap fun site => c.scan.definition? site.name := by
        simpa [called] using todo
      split
      · exact ⟨outermost, idle⟩
      · rename_i arguments written
        refine (keeps p site callee _ outermost idle todo called arguments).bind (fun text => ?_)
          fun e => ⟨outermost, idle⟩
        split
        · exact ⟨outermost, idle⟩
        · exact ih (p := p.pass) _ outermost idle (by simp [Standing.pass, outermost, todo])

theorem keeps_expandMacro (free : Nat) (chain : List String) (d : Definition) (site : CallSite)
    (arguments : Text) {p : Standing} (idle : p.errand = .idle)
    (names : chain = p.owned.map fun e => e.1.name)
    (next : d.name ∉ p.owned.map (fun e => e.1.name) → p.Next c.scan d) :
    (expandMacro c free chain d site arguments).Keeps c.settings.cachePolicy c.scan (Ends p p.pass) p := by
  induction free generalizing chain d site arguments p with
  | zero =>
    rw [expandMacro]
    split <;> rfl
  | succ free ih =>
    rw [expandMacro]
    split
    · rfl
    · rename_i isNew
      rw [names, List.contains_iff_mem] at isNew
      refine keeps_cached idle (next isNew) fun ticket => ?_
      intro q
      have body : (expandBody c (expandMacro c free (chain ++ [d.name])) d).Keeps c.settings.cachePolicy c.scan
          (Ends q q) q := by
        rw [expandBody]
        split
        · rfl
        · refine Keeps.bind (keeps_expandSites_inner d.calls {} fun site member callee called arguments => ?_)
            (fun r => rfl) fun e => rfl
          have inside : q.pass = q := by simp [Standing.pass, q]
          have inner := ih (chain ++ [d.name]) callee site arguments (p := q) idle (by simp [q, names])
            fun isNew => ⟨fun none => by simp [q] at none, fun top t isTop => ?_, isNew, ?_⟩
          · rwa [inside] at inner
          · simp only [q, List.getLast?_append, List.getLast?_singleton, Option.some_or,
              Option.some.injEq, Prod.mk.injEq] at isTop
            obtain ⟨rfl, -⟩ := isTop
            exact ⟨site, member, called⟩
          · rw [(Scan.definition?_eq_some called).2]
            exact called
      exact body.bind (fun ready outcome => by cases outcome <;> rfl) fun e => rfl

theorem keeps_expandFile (path : Text) (tree : Tree) :
    (expandFile c path tree).Keeps c.settings.cachePolicy c.scan Over { todo := c.scan.callees } := by
  rw [expandFile]
  have sites : (expandSites c (expandMacro c c.scan.definitions.length []) {} c.scan.sites).Keeps
      c.settings.cachePolicy c.scan Over { todo := c.scan.callees } := by
    refine keeps_expandSites c.scan.sites {} rfl rfl rfl ?_
    intro q site callee later outermost idle todo called arguments
    refine keeps_expandMacro _ _ _ _ _ idle (by simp [outermost]) fun isNew => ⟨fun _ => ⟨later, todo⟩, ?_, isNew, ?_⟩
    · intro top ticket isTop
      simp [outermost] at isTop
    · rw [(Scan.definition?_eq_some called).2]
      exact called
  refine sites.andThen fun q r ended => ?_
  cases r with
  | error e => exact ended
  | ok r =>
    dsimp only
    rw [Keeps]
    split <;> exact ended

end Expanding

end Script

def Scan.ofText (settings : Settings) (source path : Text) : Scan :=
  match Pass.scanned settings source path with
  | .ok (_, scan) => scan
  | .error _ => {}

theorem Script.keeps_expandMacros (settings : Settings) (source path : Text) :
    (Script.expandMacros settings id source path).Keeps settings.cachePolicy
      (Scan.ofText settings source path) Over { todo := (Scan.ofText settings source path).callees } := by
  rw [expandMacros, Scan.ofText, Pass.scanned]
  cases parseModule source (settings.typeCommentsFor path) with
  | error fault => exact ⟨rfl, rfl⟩
  | ok tree =>
    dsimp only
    cases (scanTree path settings.directive source.lines tree).2 with
    | error e => exact ⟨rfl, rfl⟩
    | ok scan =>
      dsimp only
      split
      · rw [Keeps, note, Keeps]
        split <;> exact ⟨rfl, rfl⟩
      · exact keeps_expandFile (c := ⟨settings, id, source, source.lines, scan⟩) path tree

/-! ## The paths of macros -/

namespace Scan

theorem Context.path_of_define {c : Context} {name : String} {tree statement : Tree} {typed : Bool}
    {d : Definition} (made : .definition d ∈ [c.define name tree statement typed]) : d.path = c.path := by
  have same := List.mem_singleton.mp made
  unfold define at same
  split at same
  · cases same
  · cases same
    rfl

theorem Context.path_of_recognise {c : Context} {parent t : Tree} {d : Definition}
    (found : .definition d ∈ (c.recognise parent t).1) : d.path = c.path := by
  unfold recognise at found
  split at found
  · split at found
    · cases found
    · split at found
      · simp at found
      · exact path_of_define found
  · split at found
    · cases found
    · split at found
      · simp at found
      · exact path_of_define found
  · cases found

theorem path_of_ofText {settings : Settings} {source path : Text} {name : String} {d : Definition}
    (found : (ofText settings source path).definition? name = some d) : d.path = path := by
  unfold ofText at found
  split at found
  · rename_i tree scan scanned
    unfold Pass.scanned at scanned
    split at scanned
    · cases scanned
    split at scanned
    · cases scanned
    rename_i tree' parsed scan' isScan
    cases scanned
    obtain ⟨p, t, e, calls, -, here, rfl⟩ := recognised_of_scanTree isScan d (definition?_eq_some found).1
    exact Context.path_of_recognise here
  · cases found

end Scan

/-! ## Steps of passes -/

namespace Passes

variable {ι : Type} [DecidableEq ι] {settings : Settings} {file : ι → Text × Text} {s s' : Passes ι}
  {l : Ledger ι} {i j : ι}

/-- What the scans of the files find. -/
def scans (settings : Settings) (file : ι → Text × Text) (i : ι) : Scan :=
  Scan.ofText settings (file i).1 (file i).2

structure Kept (settings : Settings) (file : ι → Text × Text) (s : Passes ι) (l : Ledger ι) : Prop where
  cache : l.cache = s.cache
  published : l.published = s.published
  owner : l.owner = s.owner
  keeps : ∀ i, (s.script i).Keeps settings.cachePolicy (scans settings file i) Script.Over (l.standing i)

theorem keeps_update {standing : ι → Standing} {script : ι → PassScript PassError Expanded}
    (keeps : ∀ i, (script i).Keeps settings.cachePolicy (scans settings file i) Script.Over (standing i))
    {rest : PassScript PassError Expanded} {q : Standing}
    (goesOn : rest.Keeps settings.cachePolicy (scans settings file i) Script.Over q) (j : ι) :
    (Function.update script i rest j).Keeps settings.cachePolicy (scans settings file j) Script.Over
      (Function.update standing i q j) := by
  by_cases here : j = i
  · subst here
    rwa [Function.update_self, Function.update_self]
  · rw [Function.update_of_ne here, Function.update_of_ne here]
    exact keeps j

theorem Step.kept (step : Step s s') (kept : Kept settings file s l) :
    ∃ l', Kept settings file s' l' ∧
      (l' = l ∨ Ledger.Step settings.cachePolicy (scans settings file) l l') := by
  obtain ⟨cache, standing, published, owner⟩ := l
  obtain ⟨rfl, rfl, rfl, keeps⟩ := kept
  -- steps that the others do not notice
  have quiet : ∀ {i : ι} {rest : PassScript PassError Expanded},
      rest.Keeps settings.cachePolicy (scans settings file i) Script.Over (standing i) →
      Kept settings file { s with script := Function.update s.script i rest }
        ⟨s.cache, standing, s.published, s.owner⟩ := by
    intro i rest goesOn
    refine ⟨rfl, rfl, rfl, fun j => ?_⟩
    have changed := keeps_update keeps goesOn j
    rwa [Function.update_eq_self] at changed
  cases step with
  | @reports i entries rest here =>
    have now := keeps i
    rw [here] at now
    exact ⟨_, quiet now, .inl rfl⟩
  | @runs i call rest here outcome =>
    have now := keeps i
    rw [here] at now
    exact ⟨_, quiet (now outcome), .inl rfl⟩
  | @asks i key rest here =>
    have now := keeps i
    rw [here] at now
    obtain ⟨idle, d, rfl, next, hit, wait, own⟩ := now
    rcases claimed : s.cache.claim (d.cacheKey settings.cachePolicy) with ⟨cache', value | ticket | ticket⟩
    · exact ⟨_, ⟨rfl, rfl, rfl, keeps_update keeps (hit value)⟩, .inr (.hits idle next claimed)⟩
    · exact ⟨_, ⟨rfl, rfl, rfl, keeps_update keeps (wait ticket)⟩, .inr (.joins idle next claimed)⟩
    · obtain ⟨-, -, rfl, -⟩ := Cache.claim_own claimed
      refine ⟨_, ⟨rfl, rfl, ?_, keeps_update keeps (own _)⟩, .inr (.owns idle next claimed)⟩
      simp
  | @receives i key ticket rest outcome here known =>
    have now := keeps i
    rw [here] at now
    obtain ⟨waiting, d, rfl, next, ok, error⟩ := now
    cases outcome with
    | ok value => exact ⟨_, ⟨rfl, rfl, rfl, keeps_update keeps (ok value)⟩, .inr (.receives waiting next known)⟩
    | error e => exact ⟨_, ⟨rfl, rfl, rfl, keeps_update keeps (error e)⟩, .inr (.leaves waiting)⟩
  | @leaves i key ticket rest here e =>
    have now := keeps i
    rw [here] at now
    obtain ⟨waiting, d, rfl, next, ok, error⟩ := now
    exact ⟨_, ⟨rfl, rfl, rfl, keeps_update keeps (error e)⟩, .inr (.leaves waiting)⟩
  | @settles i key ticket value rest here =>
    have now := keeps i
    rw [here] at now
    obtain ⟨idle, outer, d, owned, rfl, stored⟩ := now
    exact ⟨_, ⟨rfl, rfl, rfl, keeps_update keeps (stored _)⟩, .inr (.settles idle owned value)⟩
  | @withdraws i key ticket error rest here =>
    have now := keeps i
    rw [here] at now
    obtain ⟨idle, outer, d, owned, rfl, goesOn⟩ := now
    exact ⟨_, ⟨rfl, rfl, rfl, keeps_update keeps goesOn⟩, .inr (.withdraws idle owned error)⟩
  | @publishes i key ticket outcome rest here =>
    have now := keeps i
    rw [here] at now
    obtain ⟨closing, goesOn⟩ := now
    exact ⟨_, ⟨rfl, rfl, rfl, keeps_update keeps goesOn⟩, .inr (.publishes closing)⟩

omit [DecidableEq ι] in
theorem Initial.kept (start : s.Initial settings file) :
    ∃ l, Kept settings file s l ∧ l.Sound settings.cachePolicy (scans settings file) := by
  refine ⟨⟨s.cache, fun i => { todo := (scans settings file i).callees }, s.published, s.owner⟩,
    ⟨rfl, rfl, rfl, fun i => ?_⟩, ?_⟩
  · rw [start.scripts i]
    exact Script.keeps_expandMacros settings (file i).1 (file i).2
  · have idle : ∀ client : ι × Nat, Standing.phase settings.cachePolicy
        { todo := (scans settings file client.1).callees } client.2 = .idle := by
      intro client
      simp [Standing.phase]
    refine ⟨Shared.coherent_of_initial ⟨start.noComputation, idle, start.unpublished⟩, ?_, ?_, ?_, ?_⟩
    · intro client key ticket computing
      cases (idle client).symm.trans computing
    · intro client key ticket owned
      cases (congrArg Phase.owned (idle client)).symm.trans owned
    · intro i
      exact ⟨by simp, List.isChain_nil, by simp, by simp⟩
    · intro i
      exact ⟨[], rfl, by simp⟩

theorem Run.kept {s₀ : Passes ι} (start : s₀.Initial settings file) (run : Run s₀ s) :
    ∃ l, Kept settings file s l ∧ l.Sound settings.cachePolicy (scans settings file) := by
  induction run with
  | refl => exact start.kept
  | tail _ step ih =>
    obtain ⟨l, kept, sound⟩ := ih
    obtain ⟨l', kept', rfl | moves⟩ := step.kept kept
    · exact ⟨l', kept', sound⟩
    · exact ⟨l', kept', moves.sound sound⟩

/-- A pass waits for the result of a computation that another pass has begun and not ended. -/
def Waits (s : Passes ι) (i j : ι) : Prop :=
  ∃ key ticket rest, s.script i = .await key ticket rest ∧ s.published ticket = none ∧ s.owner ticket = some j

omit [DecidableEq ι] in
theorem Waits.kept (waits : s.Waits i j) (kept : Kept settings file s l) : l.Waits i j := by
  obtain ⟨key, ticket, rest, here, unpublished, owner⟩ := waits
  have now := kept.keeps i
  rw [here] at now
  exact ⟨key, ticket, now.1, kept.published ▸ unpublished, kept.owner ▸ owner⟩

/-- A pass that goes on, or that waits for nobody. -/
def CanGo (s : Passes ι) (i : ι) : Prop :=
  (∀ result, s.script i ≠ .done result) ∧
    ∀ key ticket rest, s.script i = .await key ticket rest → ∃ outcome, s.published ticket = some outcome

omit [DecidableEq ι] in
theorem Kept.exists_waits (kept : Kept settings file s l)
    (sound : l.Sound settings.cachePolicy (scans settings file)) (goesOn : ∀ result, s.script i ≠ .done result)
    (stuck : ¬ s.CanGo i) : ∃ j, s.Waits i j ∧ ∀ result, s.script j ≠ .done result := by
  have waits : ∃ key ticket rest, s.script i = .await key ticket rest ∧ s.published ticket = none := by
    by_contra free
    refine stuck ⟨goesOn, fun key ticket rest here => ?_⟩
    cases known : s.published ticket with
    | some outcome => exact ⟨outcome, rfl⟩
    | none => exact absurd ⟨key, ticket, rest, here, known⟩ free
  obtain ⟨key, ticket, rest, here, unpublished⟩ := waits
  have now := kept.keeps i
  rw [here] at now
  have waiting := (Standing.phase_end settings.cachePolicy (l.standing i)).trans now.1
  rcases sound.clients.awaited (i, (l.standing i).owned.length) key ticket waiting with
    ⟨⟨j, depth⟩, owns⟩ | ⟨outcome, known, -⟩
  · have owner := sound.owner (j, depth) key ticket owns
    refine ⟨j, ⟨key, ticket, rest, here, unpublished, kept.owner ▸ owner⟩, fun result isDone => ?_⟩
    have ended := kept.keeps j
    rw [isDone] at ended
    rcases Standing.owned_of_phase owns with ⟨d, member, -⟩ | closing
    · rw [ended.1] at member
      cases member
    · rw [ended.2] at closing
      cases closing
  · rw [← kept.published] at unpublished
    cases unpublished.symm.trans known

/-- Passes in turns do not wait for each other in a circle, and as long as one is not over, one can go on,
if no calls between cache keys go in a circle, or if every macro of a file has a key of its own and passes
over one path are over one text. -/
theorem no_circle_of_waits {s₀ : Passes ι} (start : s₀.Initial settings file) (run : Run s₀ s)
    (safe : (∀ key, ¬ Relation.TransGen (KeyCalls settings.cachePolicy (scans settings file)) key key) ∨
      (settings.cachePolicy = .file ∧ ∀ i j, (file i).2 = (file j).2 → (file i).1 = (file j).1)) :
    (∀ i, ¬ Relation.TransGen s.Waits i i) ∧
      (Finite ι → (∃ i, ∀ result, s.script i ≠ .done result) → ∃ i, s.CanGo i) := by
  obtain ⟨l, kept, sound⟩ := run.kept start
  have noCircle : ∀ i, ¬ Relation.TransGen l.Waits i i := by
    intro i
    rcases safe with acyclic | ⟨isFile, texts⟩
    · exact Ledger.no_circle_of_acyclic sound acyclic
    · rw [isFile] at sound
      have paths : ∀ i name d, (scans settings file i).definition? name = some d → d.path = (file i).2 :=
        fun i name d found => Scan.path_of_ofText found
      have files : ∀ i j, (file i).2 = (file j).2 → scans settings file i = scans settings file j := by
        intro i j same
        rw [scans, scans, texts i j same, same]
      exact Ledger.no_circle_of_files sound paths files
  have fewer : s.Waits ≤ l.Waits := fun _ _ waits => waits.kept kept
  have clear : ∀ i, ¬ Relation.TransGen s.Waits i i := fun i circle =>
    noCircle i (Relation.TransGen.mono fewer i i circle)
  refine ⟨clear, fun finite someone => ?_⟩
  by_contra stuck
  have noTurn : ∀ i, ¬ s.CanGo i := fun i canGo => stuck ⟨i, canGo⟩
  -- whoever is not over waits for somebody who is not over, so the waits go on for ever
  have order : WellFounded fun i j => Relation.TransGen s.Waits j i :=
    @Finite.wellFounded_of_trans_of_irrefl ι finite _ ⟨fun _ _ _ first second => second.trans first⟩
      ⟨fun i => clear i⟩
  obtain ⟨last, goesOn, least⟩ := order.has_min { i | ∀ result, s.script i ≠ .done result } someone
  obtain ⟨j, waits, goesOn'⟩ := kept.exists_waits sound goesOn (noTurn last)
  exact least j goesOn' (.single waits)

/-! ## Turns that are given out -/

def advance (outcome : Except PassError Text) (s : Passes ι) (i : ι) : Passes ι :=
  match s.script i with
  | .done _ => s
  | .report _ rest => { s with script := Function.update s.script i rest }
  | .claim key rest =>
    { s with
      cache := (s.cache.claim key).1
      script := Function.update s.script i (rest (s.cache.claim key).2)
      owner := if (s.cache.claim key).2 = .own s.cache.issued then
          Function.update s.owner s.cache.issued (some i) else s.owner }
  | .await _ ticket rest => match s.published ticket with
      | some outcome => { s with script := Function.update s.script i (rest outcome) }
      | none => s
  | .run _ rest => { s with script := Function.update s.script i (rest outcome) }
  | .settle key _ value rest =>
    { s with cache := (s.cache.settle key value).1
             script := Function.update s.script i (rest (s.cache.settle key value).2) }
  | .release key _ _ rest => { s with cache := s.cache.release key, script := Function.update s.script i rest }
  | .publish _ ticket outcome rest =>
    { s with published := Function.update s.published ticket (some outcome)
             script := Function.update s.script i rest }

theorem run_advance (outcome : Except PassError Text) (s : Passes ι) (i : ι) : Run s (s.advance outcome i) := by
  unfold advance
  split
  · exact .refl
  · exact .single (.reports ‹_›)
  · exact .single (.asks ‹_›)
  · split
    · exact .single (.receives ‹_› ‹_›)
    · exact .refl
  · exact .single (.runs ‹_› outcome)
  · exact .single (.settles ‹_›)
  · exact .single (.withdraws ‹_›)
  · exact .single (.publishes ‹_›)

theorem run_turns (outcome : Except PassError Text) (turns : List ι) (s : Passes ι) :
    Run s (turns.foldl (advance outcome) s) := by
  induction turns generalizing s with
  | nil => exact .refl
  | cons i rest ih => exact (run_advance outcome s i).trans (ih _)

/-- Passes over some files that are about to begin. -/
def begin (settings : Settings) (file : ι → Text × Text) : Passes ι :=
  { script := fun i => Script.expandMacros settings id (file i).1 (file i).2 }

omit [DecidableEq ι] in
theorem initial_begin (settings : Settings) (file : ι → Text × Text) :
    (begin settings file).Initial settings file :=
  ⟨fun _ => rfl, rfl, fun _ => rfl, fun _ => rfl⟩

def waitsFor? (s : Passes ι) (i : ι) : Option ι :=
  match s.script i with
  | .await _ ticket _ => if (s.published ticket).isNone then s.owner ticket else none
  | _ => none

omit [DecidableEq ι] in
theorem waits_of_waitsFor? (found : s.waitsFor? i = some j) : s.Waits i j := by
  unfold waitsFor? at found
  split at found
  · rename_i key ticket rest here
    split at found
    · rename_i unpublished
      exact ⟨key, ticket, rest, here, Option.isNone_iff_eq_none.mp unpublished, found⟩
    · cases found
  · cases found

/-- Two macros that call each other. -/
def mutualSource : Text := chars ("def a():\n    'use macro'\n    return b()\n" ++
  "def b():\n    'use macro'\n    return a()\n")

/-- With one key for all macros of a name, a pass that begins with one of the macros and a pass that begins
with the other can wait for each other. -/
theorem mutualMacros_wait :
    let settings : Settings := { cachePolicy := .name }
    let file : Bool → Text × Text := fun first =>
      (mutualSource ++ chars (if first then "x = a()\n" else "y = b()\n"),
        chars (if first then "one.py" else "two.py"))
    ∃ s, Run (begin settings file) s ∧ s.Waits true false ∧ s.Waits false true := by
  rw [show mutualSource = _ from chars_append _ _]
  intro settings file
  let turns := [true, true, false, false, true, true, false, false]
  refine ⟨turns.foldl (advance (.ok ['1'])) (begin settings file), run_turns _ turns _,
    waits_of_waitsFor? ?_, waits_of_waitsFor? ?_⟩ <;> decide +kernel

/-- With a key for each macro of a file, the passes over a file with these macros end. -/
theorem mutualMacros_end :
    let settings : Settings := {}
    let file : Bool → Text × Text := fun _ => (mutualSource ++ chars "x = a()\n", chars "one.py")
    ∃ s, Run (begin settings file) s ∧ s.Waits false true ∧ s.CanGo true := by
  rw [show mutualSource = _ from chars_append _ _]
  intro settings file
  let turns := [true, true, true, false, false, false, false]
  have waits : (turns.foldl (advance (.ok ['1'])) (begin settings file)).Waits false true :=
    waits_of_waitsFor? (by decide +kernel)
  have run := run_turns (.ok ['1']) turns (begin settings file)
  obtain ⟨-, goesOn⟩ := no_circle_of_waits (initial_begin settings file) run (.inr ⟨rfl, fun _ _ _ => rfl⟩)
  obtain ⟨key, ticket, rest, here, unpublished, -⟩ := id waits
  have unfinished : ∀ result, (turns.foldl (advance (.ok ['1'])) (begin settings file)).script false ≠
      .done result := by
    intro result isDone
    rw [here] at isDone
    cases isDone
  obtain ⟨i, canGo⟩ := goesOn inferInstance ⟨false, unfinished⟩
  refine ⟨_, run, waits, ?_⟩
  cases i with
  | true => exact canGo
  | false =>
    obtain ⟨outcome, known⟩ := canGo.2 key ticket rest here
    cases unpublished.symm.trans known

end Passes

end MacroExpand
