import MacroExpand.Macro.Script
import MacroExpand.Proofs.Clearing
import MacroExpand.Proofs.Passes
import Mathlib.Data.List.Chain
import Mathlib.Logic.Relation

/-!
# Where passes stand

A pass computes macros inside each other: the calls in a macro are expanded before it runs.  A standing
records which macros a pass computes, outermost first, which calls of the file are still to come, and
what the pass is about to do with the cache.  Each macro that is being computed is a client of the cache,
so passes in turns are clients in turns, and what holds for clients holds for passes.

A pass waits for another when it waits for a ticket that the other was given and has not settled.  The
pass that computes a macro waits only for macros that the macro leads to by its calls, so a circle of
passes that wait for each other is a circle of calls between cache keys.  With one key for a macro of a
file, circles of calls do no harm either: of all passes over a file only one computes anything.
-/

set_option autoImplicit false

namespace MacroExpand

def CacheEvent.granted? {ι κ α ε : Type} : CacheEvent ι κ α ε → Option (ι × Nat)
  | .owns i _ ticket => some (i, ticket)
  | _ => none

/-- A client that owns a ticket after a step has owned it before or gets it. -/
theorem Shared.Step.owned {ι κ α ε : Type} [DecidableEq ι] [DecidableEq κ] {s s' : Shared ι κ α ε}
    {event : CacheEvent ι κ α ε} (step : Shared.Step s event s') {i : ι} {key : κ} {ticket : Nat}
    (owned : (s'.phase i).owned = some (key, ticket)) :
    (s.phase i).owned = some (key, ticket) ∨ event.granted? = some (i, ticket) := by
  have before : ∀ {j : ι} {phase : Phase κ α ε},
      (∀ key ticket, phase.owned = some (key, ticket) → (s.phase j).owned = some (key, ticket)) →
      (Function.update s.phase j phase i).owned = some (key, ticket) →
      (s.phase i).owned = some (key, ticket) := by
    intro j phase keeps holds
    by_cases here : i = j
    · subst here
      rw [Function.update_self] at holds
      exact keeps key ticket holds
    · rwa [Function.update_of_ne here] at holds
  cases step with
  | hit | puts | gets | clears => exact .inl owned
  | joins | publishes | receives | leaves =>
    refine .inl (before ?_ owned)
    rintro key' ticket' ⟨⟩
  | succeeds computing value | fails computing error =>
    refine .inl (before (fun key' ticket' same => ?_) owned)
    rw [computing]
    exact same
  | @owns j key' cache ticket' idle claimed =>
    by_cases here : i = j
    · subst here
      simp only [Function.update_self, Phase.owned, Option.some.injEq, Prod.mk.injEq] at owned
      obtain ⟨rfl, rfl⟩ := owned
      exact .inr rfl
    · exact .inl (by simpa [here] using owned)

theorem Shared.Step.granted {ι κ α ε : Type} [DecidableEq ι] [DecidableEq κ] {s s' : Shared ι κ α ε}
    {event : CacheEvent ι κ α ε} (step : Shared.Step s event s') {i : ι} {ticket : Nat}
    (granted : event.granted? = some (i, ticket)) : ticket = s.cache.issued := by
  cases step with
  | owns idle claimed =>
    cases granted
    exact (Cache.claim_own claimed).2.2.1
  | _ => cases granted

/-- Without values that clients store of their own, a key that is being computed has no result. -/
theorem Shared.Step.absent {ι κ α ε : Type} [DecidableEq ι] [DecidableEq κ] {s s' : Shared ι κ α ε}
    {event : CacheEvent ι κ α ε} (step : Shared.Step s event s') (coherent : s.Coherent)
    (noPuts : ∀ i key value stored, event ≠ .puts i key value stored)
    (absent : ∀ i key ticket, s.phase i = .computing key ticket → s.cache.get? key = none) :
    ∀ i key ticket, s'.phase i = .computing key ticket → s'.cache.get? key = none := by
  intro i key ticket computing
  have before : s.cache.get? key = none := by
    rcases step.computing computing with earlier | ⟨-, cache, claimed⟩
    · exact absent i key ticket earlier
    · exact (Cache.claim_own claimed).1
  cases step with
  | hit idle claimed => rwa [(Cache.claim_hit claimed).1]
  | joins idle claimed => rwa [(Cache.claim_wait claimed).1]
  | owns idle claimed =>
    obtain ⟨-, -, -, rfl⟩ := Cache.claim_own claimed
    exact before
  | @succeeds j key' ticket' computing' value =>
    by_cases here : i = j
    · subst here
      simp at computing
    · have earlier : s.phase i = .computing key ticket := by simpa [here] using computing
      have other : key ≠ key' := by
        rintro rfl
        exact here (coherent.computing_unique (Phase.computed_iff.mpr earlier)
          (Phase.computed_iff.mpr computing'))
      change (s.cache.put key' value).1.get? key = none
      rw [Cache.get?_put, before, if_neg other]
      rfl
  | puts idle key' value => exact absurd rfl (noPuts _ _ _ _)
  | clears => rfl
  | fails | publishes | receives | leaves | gets => exact before

structure Standing where
  /-- The macros of the calls in the file that have no result yet. -/
  todo : List Definition
  /-- The macros that are being computed, outermost first, and their tickets. -/
  owned : List (Definition × Nat) := []
  /-- What is under way with the macro that is called innermost. -/
  errand : Phase CacheKey Text PassError := .idle

def Scan.callees (scan : Scan) : List Definition := scan.sites.filterMap fun site => scan.definition? site.name

namespace Standing

variable {policy : CachePolicy} {p : Standing} {d : Definition} {ticket : Nat}

def pass (p : Standing) : Standing := { p with todo := if p.owned.isEmpty then p.todo.tail else p.todo }

def phase (policy : CachePolicy) (p : Standing) (depth : Nat) : Phase CacheKey Text PassError :=
  match p.owned[depth]? with
  | some (d, ticket) => .computing (d.cacheKey policy) ticket
  | none => if depth = p.owned.length then p.errand else .idle

@[simp] theorem pass_errand (p : Standing) : p.pass.errand = p.errand := rfl

theorem phase_end (policy : CachePolicy) (p : Standing) : p.phase policy p.owned.length = p.errand := by
  simp [phase]

theorem phase_errand {q : Standing} (owned : q.owned = p.owned) :
    q.phase policy = Function.update (p.phase policy) p.owned.length q.errand := by
  funext depth
  by_cases here : depth = p.owned.length
  · subst here
    simp [phase, owned]
  · simp [phase, owned, here]

theorem phase_push {q : Standing} (idle : p.errand = .idle) (owned : q.owned = p.owned ++ [(d, ticket)])
    (errand : q.errand = .idle) : q.phase policy =
      Function.update (p.phase policy) p.owned.length (.computing (d.cacheKey policy) ticket) := by
  funext depth
  by_cases here : depth = p.owned.length
  · subst here
    simp [phase, owned]
  · rw [Function.update_of_ne here]
    by_cases inside : depth < p.owned.length
    · simp [phase, owned, List.getElem?_append_left inside, List.getElem?_eq_getElem inside]
    · have beyond : p.owned.length + 1 ≤ depth := by omega
      have outside : p.owned[depth]? = none := List.getElem?_eq_none (by omega)
      have gone : (p.owned ++ [(d, ticket)])[depth]? = none := List.getElem?_eq_none (by simpa using beyond)
      simp [phase, owned, outside, gone, idle, errand]

theorem phase_pop {q : Standing} {outer : List (Definition × Nat)} (idle : p.errand = .idle)
    (owned : p.owned = outer ++ [(d, ticket)]) (rest : q.owned = outer) :
    q.phase policy = Function.update (p.phase policy) outer.length q.errand := by
  funext depth
  by_cases here : depth = outer.length
  · subst here
    simp [phase, rest]
  · rw [Function.update_of_ne here]
    by_cases inside : depth < outer.length
    · simp [phase, owned, rest, List.getElem?_append_left inside, List.getElem?_eq_getElem inside]
    · have beyond : outer.length + 1 ≤ depth := by omega
      have outside : outer[depth]? = none := List.getElem?_eq_none (by omega)
      have gone : (outer ++ [(d, ticket)])[depth]? = none := List.getElem?_eq_none (by simpa using beyond)
      simp [phase, owned, rest, outside, gone, idle, here]

theorem phase_inner {outer : List (Definition × Nat)} (owned : p.owned = outer ++ [(d, ticket)]) :
    p.phase policy outer.length = .computing (d.cacheKey policy) ticket := by
  simp [phase, owned]

/-- A macro that is being computed, or an outcome that is about to be published. -/
theorem owned_of_phase {depth : Nat} {key : CacheKey}
    (holds : (p.phase policy depth).owned = some (key, ticket)) :
    (∃ d, (d, ticket) ∈ p.owned ∧ d.cacheKey policy = key) ∨ p.errand.owned = some (key, ticket) := by
  unfold phase at holds
  split at holds
  · rename_i d t found
    cases holds
    exact .inl ⟨d, List.mem_of_getElem? found, rfl⟩
  · split at holds
    · exact .inr holds
    · cases holds

/-- The macro that a pass asks for next: the next call of the file, or a call in the innermost macro that
is being computed, and none that is being computed already. -/
structure Next (scan : Scan) (p : Standing) (d : Definition) : Prop where
  inFile : p.owned = [] → ∃ rest, p.todo = d :: rest
  inMacro : ∀ top ticket, p.owned.getLast? = some (top, ticket) →
    ∃ site ∈ top.calls, scan.definition? site.name = some d
  isNew : d.name ∉ p.owned.map fun e => e.1.name
  known : scan.definition? d.name = some d

/-- How the parts of a standing fit together. -/
structure Fit (policy : CachePolicy) (scan : Scan) (p : Standing) : Prop where
  /-- What a pass waits for it has asked for. -/
  asked : ∀ key ticket, p.errand = .waiting key ticket → ∃ d, key = d.cacheKey policy ∧ p.Next scan d
  /-- The macros that are being computed call each other. -/
  linked : p.owned.IsChain fun a b => ∃ site ∈ a.1.calls, scan.definition? site.name = some b.1
  known : ∀ e ∈ p.owned, scan.definition? e.1.name = some e.1
  /-- The outermost macro is that of the next call in the file. -/
  bottom : ∀ d ticket inner, p.owned = (d, ticket) :: inner → ∃ later, p.todo = d :: later

section Fitting

variable {scan : Scan} {q : Standing}

theorem Next.congr (next : p.Next scan d) (todo : q.todo = p.todo) (owned : q.owned = p.owned) :
    q.Next scan d :=
  ⟨by rw [todo, owned]; exact next.inFile, by rw [owned]; exact next.inMacro,
    by rw [owned]; exact next.isNew, next.known⟩

theorem pass_todo (ready : p.owned ≠ []) : p.pass.todo = p.todo := by
  simp [pass, ready]

theorem Fit.errand (fit : p.Fit policy scan) (todo : p.owned ≠ [] → q.todo = p.todo)
    (owned : q.owned = p.owned)
    (asked : ∀ key ticket, q.errand = .waiting key ticket → ∃ d, key = d.cacheKey policy ∧ q.Next scan d) :
    q.Fit policy scan := by
  refine ⟨asked, owned ▸ fit.linked, owned ▸ fit.known, fun d ticket inner starts => ?_⟩
  rw [owned] at starts
  rw [todo (by simp [starts])]
  exact fit.bottom d ticket inner starts

theorem Fit.push (fit : p.Fit policy scan) (next : p.Next scan d) (idle : p.errand = .idle) :
    Fit policy scan { p with owned := p.owned ++ [(d, ticket)] } := by
  refine ⟨fun key t waits => ?_, ?_, fun e member => ?_, fun b t inner starts => ?_⟩
  · rw [idle] at waits
    cases waits
  · refine List.isChain_append.mpr ⟨fit.linked, List.isChain_singleton _, ?_⟩
    rintro ⟨top, t⟩ isTop e ⟨⟩
    exact next.inMacro top t isTop
  · rcases List.mem_append.mp member with outer | last
    · exact fit.known e outer
    · cases List.mem_singleton.mp last
      exact next.known
  · rcases owned : p.owned with - | ⟨e, rest⟩
    · rw [owned] at starts
      cases starts
      exact next.inFile owned
    · rw [owned] at starts
      cases starts
      exact fit.bottom b t rest owned

theorem Fit.pop (fit : p.Fit policy scan) {outer : List (Definition × Nat)}
    (owned : p.owned = outer ++ [(d, ticket)]) (todo : outer ≠ [] → q.todo = p.todo) (rest : q.owned = outer)
    (noWait : ∀ key ticket, q.errand ≠ .waiting key ticket) : q.Fit policy scan := by
  refine ⟨fun key t waits => absurd waits (noWait key t), ?_, fun e member => ?_, fun b t inner starts => ?_⟩
  · have linked := fit.linked
    rw [owned] at linked
    exact rest ▸ (List.isChain_append.mp linked).1
  · rw [rest] at member
    exact fit.known e (by simp [owned, member])
  · rw [rest] at starts
    rw [todo (by simp [starts])]
    exact fit.bottom b t (inner ++ [(d, ticket)]) (by rw [owned, starts]; rfl)

end Fitting

end Standing

/-- A cache, the standings of the passes that share it, the published outcomes of tickets, and who was
given each ticket. -/
structure Ledger (ι : Type) where
  cache : Cache CacheKey Text
  standing : ι → Standing
  published : Nat → Option (Except PassError Text)
  owner : Nat → Option ι

namespace Ledger

variable {ι : Type} [DecidableEq ι] {policy : CachePolicy} {scan : ι → Scan} {l l' : Ledger ι}

/-- A step of a pass that concerns the others. -/
inductive Step (policy : CachePolicy) (scan : ι → Scan) : Ledger ι → Ledger ι → Prop where
  | hits {l : Ledger ι} {i : ι} {d : Definition} {cache : Cache CacheKey Text} {value : Text}
      (idle : (l.standing i).errand = .idle) (next : (l.standing i).Next (scan i) d)
      (claimed : l.cache.claim (d.cacheKey policy) = (cache, .hit value)) :
      Step policy scan l
        { l with cache, standing := Function.update l.standing i (l.standing i).pass }
  | joins {l : Ledger ι} {i : ι} {d : Definition} {cache : Cache CacheKey Text} {ticket : Nat}
      (idle : (l.standing i).errand = .idle) (next : (l.standing i).Next (scan i) d)
      (claimed : l.cache.claim (d.cacheKey policy) = (cache, .wait ticket)) :
      Step policy scan l
        { l with cache, standing := Function.update l.standing i
                  { l.standing i with errand := .waiting (d.cacheKey policy) ticket } }
  | owns {l : Ledger ι} {i : ι} {d : Definition} {cache : Cache CacheKey Text} {ticket : Nat}
      (idle : (l.standing i).errand = .idle) (next : (l.standing i).Next (scan i) d)
      (claimed : l.cache.claim (d.cacheKey policy) = (cache, .own ticket)) :
      Step policy scan l
        { l with cache, owner := Function.update l.owner ticket (some i)
                 standing := Function.update l.standing i
                  { l.standing i with owned := (l.standing i).owned ++ [(d, ticket)] } }
  | receives {l : Ledger ι} {i : ι} {d : Definition} {ticket : Nat} {value : Text}
      (waiting : (l.standing i).errand = .waiting (d.cacheKey policy) ticket)
      (next : (l.standing i).Next (scan i) d) (known : l.published ticket = some (.ok value)) :
      Step policy scan l
        { l with standing := Function.update l.standing i { (l.standing i).pass with errand := .idle } }
  /-- The macro that a pass waits for fails, or the wait is cancelled. -/
  | leaves {l : Ledger ι} {i : ι} {key : CacheKey} {ticket : Nat}
      (waiting : (l.standing i).errand = .waiting key ticket) :
      Step policy scan l
        { l with standing := Function.update l.standing i { l.standing i with errand := .idle } }
  | settles {l : Ledger ι} {i : ι} {d : Definition} {ticket : Nat} {outer : List (Definition × Nat)}
      (idle : (l.standing i).errand = .idle) (owned : (l.standing i).owned = outer ++ [(d, ticket)])
      (value : Text) :
      Step policy scan l
        { l with
          cache := (l.cache.settle (d.cacheKey policy) value).1
          standing := Function.update l.standing i
            { ({ l.standing i with owned := outer } : Standing).pass with
              errand := .closing (d.cacheKey policy) ticket
                (.ok (l.cache.settle (d.cacheKey policy) value).2) } }
  | withdraws {l : Ledger ι} {i : ι} {d : Definition} {ticket : Nat} {outer : List (Definition × Nat)}
      (idle : (l.standing i).errand = .idle) (owned : (l.standing i).owned = outer ++ [(d, ticket)])
      (error : PassError) :
      Step policy scan l
        { l with
          cache := l.cache.release (d.cacheKey policy)
          standing := Function.update l.standing i
            { l.standing i with owned := outer
                                errand := .closing (d.cacheKey policy) ticket (.error error) } }
  | publishes {l : Ledger ι} {i : ι} {key : CacheKey} {ticket : Nat} {outcome : Except PassError Text}
      (closing : (l.standing i).errand = .closing key ticket outcome) :
      Step policy scan l
        { l with published := Function.update l.published ticket (some outcome)
                 standing := Function.update l.standing i { l.standing i with errand := .idle } }

/-! ## Passes are clients -/

def shared (policy : CachePolicy) (l : Ledger ι) : Shared (ι × Nat) CacheKey Text PassError :=
  ⟨l.cache, fun client => (l.standing client.1).phase policy client.2, l.published⟩

theorem phase_update {standing : ι → Standing} {i : ι} {q : Standing} {depth : Nat}
    {phase : Phase CacheKey Text PassError}
    (changed : q.phase policy = Function.update ((standing i).phase policy) depth phase) :
    (fun client : ι × Nat => (Function.update standing i q client.1).phase policy client.2) =
      Function.update (fun client : ι × Nat => (standing client.1).phase policy client.2) (i, depth) phase := by
  funext ⟨j, n⟩
  by_cases same : j = i
  · subst same
    rw [Function.update_self, changed]
    by_cases here : n = depth
    · subst here
      rw [Function.update_self, Function.update_self]
    · rw [Function.update_of_ne here, Function.update_of_ne (by simp [here])]
  · rw [Function.update_of_ne same, Function.update_of_ne (by simp [same])]

theorem client_step {event : CacheEvent (ι × Nat) CacheKey Text PassError} {cache : Cache CacheKey Text}
    {i : ι} {depth : Nat} {phase : Phase CacheKey Text PassError} {q : Standing}
    {published : Nat → Option (Except PassError Text)} {owner : Nat → Option ι}
    (step : Shared.Step (l.shared policy) event
      ⟨cache, Function.update (l.shared policy).phase (i, depth) phase, published⟩)
    (changed : q.phase policy = Function.update ((l.standing i).phase policy) depth phase) :
    Shared.Step (l.shared policy) event
      (shared policy ⟨cache, Function.update l.standing i q, published, owner⟩) := by
  have same : shared policy ⟨cache, Function.update l.standing i q, published, owner⟩ =
      ⟨cache, Function.update (l.shared policy).phase (i, depth) phase, published⟩ :=
    congrArg (fun phases => Shared.mk cache phases published) (phase_update changed)
  rw [same]
  exact step

/-- A step of a pass is a step of a client that neither stores a value of its own nor clears the cache. -/
theorem Step.client (step : Step policy scan l l') :
    ∃ event, event ≠ .clears ∧ (∀ i key value stored, event ≠ .puts i key value stored) ∧
      l'.owner = event.granted?.elim l.owner (fun g => Function.update l.owner g.2 (some g.1.1)) ∧
      Shared.Step (l.shared policy) event (l'.shared policy) := by
  have current : ∀ i, (l.shared policy).phase (i, (l.standing i).owned.length) = (l.standing i).errand :=
    fun i => Standing.phase_end policy (l.standing i)
  cases step with
  | @hits i d cache value idle next claimed =>
    have isIdle := (current i).trans idle
    have unchanged : Function.update (l.shared policy).phase (i, (l.standing i).owned.length)
        (l.standing i).errand = (l.shared policy).phase := by
      rw [← current i]
      exact Function.update_eq_self _ _
    have step := Shared.Step.hit isIdle claimed
    have step : Shared.Step (l.shared policy) _ ⟨cache, _, l.published⟩ := step
    rw [← unchanged] at step
    exact ⟨_, by simp, by simp, rfl, client_step step (Standing.phase_errand rfl)⟩
  | @joins i d cache ticket idle next claimed =>
    have isIdle := (current i).trans idle
    exact ⟨_, by simp, by simp, rfl, client_step (.joins isIdle claimed) (Standing.phase_errand rfl)⟩
  | @owns i d cache ticket idle next claimed =>
    have isIdle := (current i).trans idle
    exact ⟨_, by simp, by simp, rfl, client_step (.owns isIdle claimed) (Standing.phase_push idle rfl idle)⟩
  | @receives i d ticket value waiting next known =>
    have waits := (current i).trans waiting
    exact ⟨_, by simp, by simp, rfl, client_step (.receives waits known) (Standing.phase_errand rfl)⟩
  | @leaves i key ticket waiting =>
    have waits := (current i).trans waiting
    exact ⟨_, by simp, by simp, rfl, client_step (.leaves waits) (Standing.phase_errand rfl)⟩
  | @settles i d ticket outer idle owned value =>
    have computing : (l.shared policy).phase (i, outer.length) = _ := Standing.phase_inner owned
    exact ⟨_, by simp, by simp, rfl,
      client_step (.succeeds computing value) (Standing.phase_pop idle owned rfl)⟩
  | @withdraws i d ticket outer idle owned error =>
    have computing : (l.shared policy).phase (i, outer.length) = _ := Standing.phase_inner owned
    exact ⟨_, by simp, by simp, rfl, client_step (.fails computing error) (Standing.phase_pop idle owned rfl)⟩
  | @publishes i key ticket outcome closing =>
    have closes := (current i).trans closing
    exact ⟨_, by simp, by simp, rfl, client_step (.publishes closes) (Standing.phase_errand rfl)⟩

/-! ## What holds of standings -/

/-- What passes leave between their steps. -/
structure Sound (policy : CachePolicy) (scan : ι → Scan) (l : Ledger ι) : Prop where
  clients : (l.shared policy).Coherent
  /-- A macro that is being computed has no result. -/
  absent : ∀ client key ticket, (l.shared policy).phase client = .computing key ticket →
    l.cache.get? key = none
  owner : ∀ client key ticket, ((l.shared policy).phase client).owned = some (key, ticket) →
    l.owner ticket = some client.1
  fit : ∀ i, (l.standing i).Fit policy (scan i)
  /-- The calls in the file before the next one have results. -/
  passed : ∀ i, ∃ before, (scan i).callees = before ++ (l.standing i).todo ∧
    ∀ d ∈ before, ∃ value, l.cache.get? (d.cacheKey policy) = some value

theorem Step.fit (step : Step policy scan l l') (fit : ∀ i, (l.standing i).Fit policy (scan i)) :
    ∀ i, (l'.standing i).Fit policy (scan i) := by
  have change : ∀ i (q : Standing), q.Fit policy (scan i) →
      ∀ j, (Function.update l.standing i q j).Fit policy (scan j) := by
    intro i q fits j
    by_cases here : j = i
    · subst here
      rwa [Function.update_self]
    · rw [Function.update_of_ne here]
      exact fit j
  cases step with
  | @hits i d cache value idle next claimed =>
    refine change i _ ((fit i).errand Standing.pass_todo rfl fun key ticket waits => ?_)
    rw [Standing.pass_errand, idle] at waits
    cases waits
  | @joins i d cache ticket idle next claimed =>
    refine change i _ ((fit i).errand (fun _ => rfl) rfl ?_)
    rintro key ticket' ⟨⟩
    exact ⟨d, rfl, next.congr rfl rfl⟩
  | @owns i d cache ticket idle next claimed => exact change i _ ((fit i).push next idle)
  | @receives i d ticket value waiting next known =>
    exact change i _ ((fit i).errand Standing.pass_todo rfl (by simp))
  | @leaves i key ticket waiting => exact change i _ ((fit i).errand (fun _ => rfl) rfl (by simp))
  | @settles i d ticket outer idle owned value =>
    exact change i _ ((fit i).pop owned (fun inside => by simp [Standing.pass, inside]) rfl (by simp))
  | @withdraws i d ticket outer idle owned error =>
    exact change i _ ((fit i).pop owned (fun _ => rfl) rfl (by simp))
  | @publishes i key ticket outcome closing =>
    exact change i _ ((fit i).errand (fun _ => rfl) rfl (by simp))

theorem Step.owner (step : Step policy scan l l') (clients : (l.shared policy).Coherent)
    (owner : ∀ client key ticket, ((l.shared policy).phase client).owned = some (key, ticket) →
      l.owner ticket = some client.1) :
    ∀ client key ticket, ((l'.shared policy).phase client).owned = some (key, ticket) →
      l'.owner ticket = some client.1 := by
  intro client key ticket owned
  obtain ⟨event, -, -, owners, step⟩ := step.client
  rcases step.owned owned with before | granted
  · have old := owner client key ticket before
    rcases given : event.granted? with - | ⟨other, new⟩
    · rw [owners, given]
      exact old
    · have apart : ticket ≠ new := by
        rintro rfl
        have below := clients.tickets.below client key ticket before
        have new := step.granted given
        exact absurd below (new ▸ Nat.lt_irrefl _)
      rw [owners, given, Option.elim_some, Function.update_of_ne apart]
      exact old
  · rw [owners, granted, Option.elim_some, Function.update_self]

theorem Step.passed (step : Step policy scan l l') (sound : l.Sound policy scan) (i : ι) :
    ∃ before, (scan i).callees = before ++ (l'.standing i).todo ∧
      ∀ d ∈ before, ∃ value, l'.cache.get? (d.cacheKey policy) = some value := by
  obtain ⟨before, whole, found⟩ := sound.passed i
  obtain ⟨event, noClear, -, -, moves⟩ := step.client
  have kept : ∀ d ∈ before, ∃ value, l'.cache.get? (d.cacheKey policy) = some value := by
    intro d member
    obtain ⟨value, isStored⟩ := found d member
    exact ⟨value, moves.keeps noClear isStored⟩
  have stays : (l'.standing i).todo = (l.standing i).todo → ∃ before,
      (scan i).callees = before ++ (l'.standing i).todo ∧
        ∀ d ∈ before, ∃ value, l'.cache.get? (d.cacheKey policy) = some value :=
    fun same => ⟨before, same ▸ whole, kept⟩
  have moves : ∀ d later, (l.standing i).todo = d :: later → (l'.standing i).todo = later →
      (∃ value, l'.cache.get? (d.cacheKey policy) = some value) → ∃ before,
      (scan i).callees = before ++ (l'.standing i).todo ∧
        ∀ d ∈ before, ∃ value, l'.cache.get? (d.cacheKey policy) = some value := by
    intro d later todo rest isStored
    refine ⟨before ++ [d], by rw [whole, todo, rest]; simp, fun d' member => ?_⟩
    rcases List.mem_append.mp member with earlier | last
    · exact kept d' earlier
    · cases List.mem_singleton.mp last
      exact isStored
  cases step with
  | @hits j d cache value idle next claimed =>
    by_cases here : i = j
    · subst here
      by_cases outermost : (l.standing i).owned = []
      · obtain ⟨later, todo⟩ := next.inFile outermost
        obtain ⟨rfl, isStored⟩ := Cache.claim_hit claimed
        exact moves d later todo (by simp [Standing.pass, outermost, todo]) ⟨value, isStored⟩
      · exact stays (by simp [Standing.pass, outermost])
    · exact stays (by simp [here])
  | @receives j d ticket value waiting next known =>
    by_cases here : i = j
    · subst here
      by_cases outermost : (l.standing i).owned = []
      · obtain ⟨later, todo⟩ := next.inFile outermost
        refine moves d later todo (by simp [Standing.pass, outermost, todo]) ⟨value, ?_⟩
        have waits := (Standing.phase_end policy (l.standing i)).trans waiting
        rcases sound.clients.awaited (i, (l.standing i).owned.length) _ ticket waits with
          ⟨client, owns⟩ | ⟨outcome, published, isStored⟩
        · have pending := sound.clients.tickets.pending client _ ticket owns
          cases known.symm.trans pending
        · exact isStored value (Option.some.inj (published.symm.trans known))
      · exact stays (by simp [Standing.pass, outermost])
    · exact stays (by simp [here])
  | @settles j d ticket outer idle owned value =>
    by_cases here : i = j
    · subst here
      by_cases outermost : outer = []
      · subst outermost
        obtain ⟨later, todo⟩ := (sound.fit i).bottom d ticket [] owned
        exact moves d later todo (by simp [Standing.pass, todo])
          ⟨_, Cache.put_stored l.cache (d.cacheKey policy) value⟩
      · exact stays (by simp [Standing.pass, outermost])
    · exact stays (by simp [here])
  | @joins j | @owns j | @leaves j | @withdraws j | @publishes j =>
    by_cases here : i = j
    · subst here
      exact stays (by simp)
    · exact stays (by simp [here])

theorem Step.sound (step : Step policy scan l l') (sound : l.Sound policy scan) : l'.Sound policy scan := by
  obtain ⟨event, noClear, noPuts, -, moves⟩ := step.client
  exact ⟨moves.coherent sound.clients noClear, moves.absent sound.clients noPuts sound.absent,
    step.owner sound.clients sound.owner, step.fit sound.fit, step.passed sound⟩

end Ledger

/-! ## Passes that wait for each other -/

/-- A macro with the key `a` calls one with the key `b`, in some file. -/
def KeyCalls {ι : Type} (policy : CachePolicy) (scan : ι → Scan) (a b : CacheKey) : Prop :=
  ∃ i, ∃ d, (scan i).definition? d.name = some d ∧ d.cacheKey policy = a ∧
    ∃ site ∈ d.calls, ∃ callee, (scan i).definition? site.name = some callee ∧ callee.cacheKey policy = b

namespace Ledger

variable {ι : Type} {policy : CachePolicy} {scan : ι → Scan} {l : Ledger ι} {i j : ι} {key key' : CacheKey}

def Awaits (l : Ledger ι) (i : ι) (key : CacheKey) : Prop :=
  ∃ ticket, (l.standing i).errand = .waiting key ticket

def Waits (l : Ledger ι) (i j : ι) : Prop :=
  ∃ key ticket, (l.standing i).errand = .waiting key ticket ∧ l.published ticket = none ∧
    l.owner ticket = some j

theorem Waits.awaits (waits : l.Waits i j) : ∃ key, l.Awaits i key := by
  obtain ⟨key, ticket, waiting, -⟩ := waits
  exact ⟨key, ticket, waiting⟩

theorem Awaits.unique (first : l.Awaits i key) (second : l.Awaits i key') : key = key' := by
  obtain ⟨ticket, waiting⟩ := first
  obtain ⟨ticket', waiting'⟩ := second
  rw [waiting] at waiting'
  cases waiting'
  rfl

theorem Waits.owned (waits : l.Waits i j) (sound : l.Sound policy scan) (awaits : l.Awaits i key)
    (goesOn : l.Awaits j key') : ∃ e ∈ (l.standing j).owned, e.1.cacheKey policy = key := by
  obtain ⟨_, ticket, waiting, unpublished, owner⟩ := waits
  obtain rfl := Awaits.unique ⟨ticket, waiting⟩ awaits
  have here := (Standing.phase_end policy (l.standing i)).trans waiting
  rcases sound.clients.awaited (i, (l.standing i).owned.length) _ ticket here with
    ⟨⟨owns, depth⟩, isOwner⟩ | ⟨outcome, known, -⟩
  · obtain rfl : j = owns := Option.some.inj (owner.symm.trans (sound.owner (owns, depth) _ ticket isOwner))
    rcases Standing.owned_of_phase isOwner with ⟨d, member, isKey⟩ | closing
    · exact ⟨(d, ticket), member, isKey⟩
    · obtain ⟨ticket', waiting'⟩ := goesOn
      rw [waiting'] at closing
      cases closing
  · cases unpublished.symm.trans known

theorem Awaits.calls (awaits : l.Awaits j key) (sound : l.Sound policy scan) {e : Definition × Nat}
    (member : e ∈ (l.standing j).owned) :
    Relation.TransGen (KeyCalls policy scan) (e.1.cacheKey policy) key := by
  obtain ⟨ticket, waiting⟩ := awaits
  obtain ⟨d, rfl, next⟩ := (sound.fit j).asked key ticket waiting
  obtain ⟨before, after, owned⟩ := List.append_of_mem member
  have linked := (sound.fit j).linked
  have known := (sound.fit j).known
  rw [owned] at linked known
  have inner := (List.isChain_append.mp linked).2.1
  have isLast : (l.standing j).owned.getLast? = (e :: after).getLast? := by
    rw [owned, List.getLast?_append_of_ne_nil _ (List.cons_ne_nil e after)]
  clear owned linked member
  induction after generalizing e with
  | nil =>
    obtain ⟨site, inside, called⟩ := next.inMacro e.1 e.2 isLast
    exact .single ⟨j, e.1, known e (by simp), rfl, site, inside, d, called, rfl⟩
  | cons e' after ih =>
    obtain ⟨⟨site, inside, called⟩, rest⟩ := List.isChain_cons_cons.mp inner
    have further := ih (e := e') (fun x isOne => known x (by simp at isOne ⊢; tauto)) rest
      (by rw [isLast, List.getLast?_cons_cons])
    exact .head ⟨j, e.1, known e (by simp), rfl, site, inside, e'.1, called, rfl⟩ further

theorem Waits.calls (waits : Relation.TransGen l.Waits i j) (sound : l.Sound policy scan)
    (awaits : l.Awaits i key) (goesOn : l.Awaits j key') :
    Relation.TransGen (KeyCalls policy scan) key key' := by
  induction waits generalizing key' with
  | single waits =>
    obtain ⟨e, member, rfl⟩ := waits.owned sound awaits goesOn
    exact goesOn.calls sound member
  | tail _ waits ih =>
    obtain ⟨between, here⟩ := waits.awaits
    obtain ⟨e, member, rfl⟩ := waits.owned sound here goesOn
    exact (ih here).trans (goesOn.calls sound member)

theorem no_circle_of_acyclic (sound : l.Sound policy scan)
    (acyclic : ∀ key, ¬ Relation.TransGen (KeyCalls policy scan) key key) :
    ¬ Relation.TransGen l.Waits i i := by
  intro circle
  obtain ⟨j, waits, -⟩ := Relation.TransGen.head'_iff.mp circle
  obtain ⟨key, awaits⟩ := waits.awaits
  exact acyclic key (Waits.calls circle sound awaits awaits)

/-! ## One key for a macro of a file -/

/-- Two ways to cut a list in front of the first element that fails a test are one. -/
theorem first_unique {α : Type} {passed : α → Prop} {before before' later later' : List α} {a b : α}
    (same : before ++ a :: later = before' ++ b :: later') (front : ∀ x ∈ before, passed x)
    (front' : ∀ x ∈ before', passed x) (here : ¬ passed a) (here' : ¬ passed b) : a = b := by
  induction before generalizing before' with
  | nil =>
    cases before' with
    | nil =>
      cases same
      rfl
    | cons c before' =>
      cases same
      exact absurd (front' a (.head _)) here
  | cons c before ih =>
    cases before' with
    | nil =>
      cases same
      exact absurd (front b (.head _)) here'
    | cons c' before' =>
      rw [List.cons_append, List.cons_append, List.cons.injEq] at same
      exact ih same.2 (fun x inside => front x (.tail _ inside)) fun x inside => front' x (.tail _ inside)

/-- A pass that computes is at a call of its file whose key has no result, and all calls before it have
one. -/
theorem Sound.outermost (sound : l.Sound policy scan) (computes : (l.standing i).owned ≠ []) :
    ∃ d ticket before later, (scan i).callees = before ++ d :: later ∧
      (∀ e ∈ before, ∃ value, l.cache.get? (e.cacheKey policy) = some value) ∧
      l.cache.get? (d.cacheKey policy) = none ∧
      (l.shared policy).phase (i, 0) = .computing (d.cacheKey policy) ticket := by
  obtain ⟨⟨d, ticket⟩, inner, owned⟩ := List.exists_cons_of_ne_nil computes
  obtain ⟨later, todo⟩ := (sound.fit i).bottom d ticket inner owned
  obtain ⟨before, whole, found⟩ := sound.passed i
  have computing : (l.shared policy).phase (i, 0) = .computing (d.cacheKey policy) ticket := by
    simp [shared, Standing.phase, owned]
  rw [todo] at whole
  exact ⟨d, ticket, before, later, whole, found, sound.absent _ _ _ computing, computing⟩

theorem Sound.one_computes (sound : l.Sound policy scan) (same : scan i = scan j)
    (first : (l.standing i).owned ≠ []) (second : (l.standing j).owned ≠ []) : i = j := by
  obtain ⟨a, ticket, before, later, whole, found, absent, computing⟩ := sound.outermost first
  obtain ⟨b, ticket', before', later', whole', found', absent', computing'⟩ := sound.outermost second
  rw [same, whole'] at whole
  have sameCall : b = a := first_unique whole found' found (by simp [absent']) (by simp [absent])
  subst sameCall
  have sameClient := sound.clients.computing_unique (Phase.computed_iff.mpr computing)
    (Phase.computed_iff.mpr computing')
  exact congrArg Prod.fst sameClient

section Files

variable {path : ι → Text}

theorem Waits.same_path (waits : l.Waits i j) (sound : l.Sound .file scan)
    (paths : ∀ i name d, (scan i).definition? name = some d → d.path = path i)
    (goesOn : l.Awaits j key') : path i = path j ∧ (l.standing j).owned ≠ [] := by
  obtain ⟨key, awaits⟩ := waits.awaits
  obtain ⟨e, member, isKey⟩ := waits.owned sound awaits goesOn
  obtain ⟨ticket, waiting⟩ := awaits
  obtain ⟨d, rfl, next⟩ := (sound.fit i).asked key ticket waiting
  refine ⟨?_, List.ne_nil_of_mem member⟩
  have same : e.1.path = d.path := by
    simp only [Definition.cacheKey, CacheKey.file.injEq] at isKey
    exact isKey.1
  rw [← paths i d.name d next.known, ← same, paths j e.1.name e.1 ((sound.fit j).known e member)]

theorem no_circle_of_files (sound : l.Sound .file scan)
    (paths : ∀ i name d, (scan i).definition? name = some d → d.path = path i)
    (files : ∀ i j, path i = path j → scan i = scan j) : ¬ Relation.TransGen l.Waits i i := by
  intro circle
  have onward : ∀ {k}, Relation.TransGen l.Waits i k → (∃ key, l.Awaits k key) →
      path i = path k ∧ (l.standing k).owned ≠ [] := by
    intro k way
    induction way with
    | single waits =>
      rintro ⟨key, awaits⟩
      exact waits.same_path sound paths awaits
    | tail _ waits ih =>
      rintro ⟨key, awaits⟩
      obtain ⟨same, computes⟩ := waits.same_path sound paths awaits
      exact ⟨(ih waits.awaits).1.trans same, computes⟩
  obtain ⟨j, waits, back⟩ := Relation.TransGen.head'_iff.mp circle
  obtain ⟨-, computes⟩ := onward circle waits.awaits
  have goesOn : ∃ key, l.Awaits j key := by
    rcases Relation.ReflTransGen.cases_head back with rfl | ⟨k, next, -⟩
    · exact waits.awaits
    · exact next.awaits
  obtain ⟨same, computes'⟩ := onward (.single waits) goesOn
  obtain rfl := sound.one_computes (files i j same) computes computes'
  -- the pass would wait for a macro that it computes itself, but it asks for none of those
  obtain ⟨key, awaits⟩ := waits.awaits
  obtain ⟨e, member, isKey⟩ := waits.owned sound awaits awaits
  obtain ⟨ticket, waiting⟩ := awaits
  obtain ⟨d, rfl, next⟩ := (sound.fit i).asked key ticket waiting
  simp only [Definition.cacheKey, CacheKey.file.injEq] at isKey
  exact next.isNew (List.mem_map.mpr ⟨e, member, isKey.2⟩)

end Files

end Ledger

end MacroExpand
