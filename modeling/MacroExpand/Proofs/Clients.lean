import MacroExpand.Cache
import Mathlib.Data.List.Nodup
import Mathlib.Logic.Function.Basic

/-!
# Clients of one cache

Any number of clients ask one cache for results, store results and look them up.  What a client does
under the lock is one step; between its steps the others take theirs in any order.  A computation runs
between the step that gives its owner a ticket and the step that stores its result or withdraws it,
and its outcome is published in a step of its own, from which on those who wait for the ticket
receive it.  A request that a computation makes is a client of its own.

The clients agree: a stored result stays, everybody who asks for a key gets it, and each key is
computed by one client at a time and successfully at most once.
-/

set_option autoImplicit false

namespace MacroExpand

/-! ## What the steps of a cache do -/

namespace Cache

variable {κ α : Type} [DecidableEq κ] {cache cache' : Cache κ α} {key key' : κ} {value stored : α}
  {ticket : Nat}

theorem claim_hit (claimed : cache.claim key = (cache', .hit value)) :
    cache' = cache ∧ cache.get? key = some value := by
  unfold claim at claimed
  split at claimed <;> cases claimed
  exact ⟨rfl, ‹_›⟩

theorem claim_wait (claimed : cache.claim key = (cache', .wait ticket)) :
    cache' = cache ∧ cache.get? key = none ∧ cache.ticket? key = some ticket := by
  unfold claim at claimed
  split at claimed <;> cases claimed
  exact ⟨rfl, ‹_›, ‹_›⟩

theorem claim_own (claimed : cache.claim key = (cache', .own ticket)) :
    cache.get? key = none ∧ cache.ticket? key = none ∧ ticket = cache.issued ∧
      cache' = { cache with inflight := cache.inflight ++ [(key, cache.issued)]
                            issued := cache.issued + 1 } := by
  unfold claim at claimed
  split at claimed <;> cases claimed
  exact ⟨‹_›, ‹_›, rfl, rfl⟩

theorem ticket?_eq_none : cache.ticket? key = none ↔ key ∉ cache.inflight.map Prod.fst := by
  simp only [ticket?, Option.map_eq_none_iff, List.find?_eq_none, List.mem_map, decide_eq_true_eq]
  exact ⟨fun isNew ⟨e, member, same⟩ => isNew e member same,
    fun isNew e member same => isNew ⟨e, member, same⟩⟩

theorem mem_of_ticket? (found : cache.ticket? key = some ticket) : (key, ticket) ∈ cache.inflight := by
  obtain ⟨⟨k, t⟩, isFound, rfl⟩ := Option.map_eq_some_iff.mp found
  have matched := List.find?_some isFound
  obtain rfl : k = key := by simpa using matched
  exact List.mem_of_find?_eq_some isFound

theorem get?_put (cache : Cache κ α) (key key' : κ) (value : α) :
    (cache.put key value).1.get? key' =
      (cache.get? key').or (if key' = key then some value else none) := by
  unfold put
  split
  · rename_i stored found
    by_cases same : key' = key
    · simp [same, found]
    · simp [same]
  · rename_i found
    simp only [get?, List.find?_append]
    by_cases same : key' = key
    · subst same
      have isNew : (cache.entries.find? fun e => e.1 = key') = none := by
        simpa [get?] using found
      simp [isNew]
    · have other : key ≠ key' := Ne.symm same
      simp [same, other]

theorem put_keeps (found : cache.get? key' = some stored) :
    (cache.put key value).1.get? key' = some stored := by
  rw [get?_put, found]
  rfl

theorem put_stored (cache : Cache κ α) (key : κ) (value : α) :
    (cache.put key value).1.get? key = some (cache.put key value).2 := by
  rw [get?_put, if_pos rfl, put]
  cases found : cache.get? key <;> rfl

theorem put_inflight (cache : Cache κ α) (key : κ) (value : α) :
    (cache.put key value).1.inflight = cache.inflight ∧
      (cache.put key value).1.issued = cache.issued := by
  unfold put
  split <;> exact ⟨rfl, rfl⟩

@[simp] theorem get?_release (cache : Cache κ α) (key key' : κ) :
    (cache.release key).get? key' = cache.get? key' := rfl

theorem mem_release : (key', ticket) ∈ (cache.release key).inflight ↔
    (key', ticket) ∈ cache.inflight ∧ key' ≠ key := by
  simp [release]

theorem settle_eq (cache : Cache κ α) (key : κ) (value : α) :
    cache.settle key value = ((cache.put key value).1.release key, (cache.put key value).2) := rfl

end Cache

/-! ## Clients -/

/-- Where a client stands: `ι` are the clients, `ε` what computations fail with. -/
inductive Phase (κ α ε : Type) where
  | idle
  /-- It computes the result of a key under a ticket of its own. -/
  | computing (key : κ) (ticket : Nat)
  /-- Its computation has ended, and the outcome is not published yet. -/
  | closing (key : κ) (ticket : Nat) (outcome : Except ε α)
  /-- It waits for the outcome of somebody else's ticket. -/
  | waiting (key : κ) (ticket : Nat)

/-- A cache with its clients and the published outcomes of tickets. -/
structure Shared (ι κ α ε : Type) where
  cache : Cache κ α
  phase : ι → Phase κ α ε
  published : Nat → Option (Except ε α)

/-- What a step of a client is. -/
inductive CacheEvent (ι κ α ε : Type) where
  /-- It asks for a key and gets the stored result. -/
  | hit (client : ι) (key : κ) (value : α)
  /-- It asks for a key that somebody else computes. -/
  | joins (client : ι) (key : κ) (ticket : Nat)
  /-- It asks for a key and is to compute the result. -/
  | owns (client : ι) (key : κ) (ticket : Nat)
  /-- Its computation gives a value. -/
  | succeeds (client : ι) (key : κ) (ticket : Nat) (value : α)
  /-- Its computation fails. -/
  | fails (client : ι) (key : κ) (ticket : Nat) (error : ε)
  /-- It publishes the outcome of its computation and ends with it. -/
  | publishes (client : ι) (key : κ) (ticket : Nat) (outcome : Except ε α)
  /-- It ends with the outcome that it has waited for. -/
  | receives (client : ι) (key : κ) (ticket : Nat) (outcome : Except ε α)
  /-- It is cancelled while it waits. -/
  | leaves (client : ι) (key : κ) (ticket : Nat)
  /-- It stores a value unless there is one, and gets the stored one. -/
  | puts (client : ι) (key : κ) (value stored : α)
  | gets (client : ι) (key : κ) (found : Option α)
  | clears

/-- How a call that asks for a key, stores a value or finds one ends in a step. -/
def CacheEvent.result? {ι κ α ε : Type} : CacheEvent ι κ α ε → Option (κ × Except ε α)
  | .hit _ key value => some (key, .ok value)
  | .publishes _ key _ outcome | .receives _ key _ outcome => some (key, outcome)
  | .puts _ key _ stored => some (key, .ok stored)
  | .gets _ key (some value) => some (key, .ok value)
  | _ => none

/-- The ticket whose outcome a call ends with in a step, and the outcome. -/
def CacheEvent.settled? {ι κ α ε : Type} : CacheEvent ι κ α ε → Option (Nat × Except ε α)
  | .publishes _ _ ticket outcome | .receives _ _ ticket outcome => some (ticket, outcome)
  | _ => none

/-- Whether a computation of a key succeeds in a step. -/
def CacheEvent.isSuccess {ι κ α ε : Type} [DecidableEq κ] (key : κ) : CacheEvent ι κ α ε → Bool
  | .succeeds _ key' _ _ => key' = key
  | _ => false

namespace Shared

variable {ι κ α ε : Type} [DecidableEq ι] [DecidableEq κ]

/-- One step of some client. -/
inductive Step : Shared ι κ α ε → CacheEvent ι κ α ε → Shared ι κ α ε → Prop where
  | hit {s : Shared ι κ α ε} {i : ι} {key : κ} {cache : Cache κ α} {value : α}
      (idle : s.phase i = .idle) (claimed : s.cache.claim key = (cache, .hit value)) :
      Step s (.hit i key value) { s with cache }
  | joins {s : Shared ι κ α ε} {i : ι} {key : κ} {cache : Cache κ α} {ticket : Nat}
      (idle : s.phase i = .idle) (claimed : s.cache.claim key = (cache, .wait ticket)) :
      Step s (.joins i key ticket)
        { s with cache, phase := Function.update s.phase i (.waiting key ticket) }
  | owns {s : Shared ι κ α ε} {i : ι} {key : κ} {cache : Cache κ α} {ticket : Nat}
      (idle : s.phase i = .idle) (claimed : s.cache.claim key = (cache, .own ticket)) :
      Step s (.owns i key ticket)
        { s with cache, phase := Function.update s.phase i (.computing key ticket) }
  | succeeds {s : Shared ι κ α ε} {i : ι} {key : κ} {ticket : Nat}
      (computing : s.phase i = .computing key ticket) (value : α) :
      Step s (.succeeds i key ticket value)
        { s with cache := (s.cache.settle key value).1
                 phase := Function.update s.phase i
                  (.closing key ticket (.ok (s.cache.settle key value).2)) }
  | fails {s : Shared ι κ α ε} {i : ι} {key : κ} {ticket : Nat}
      (computing : s.phase i = .computing key ticket) (error : ε) :
      Step s (.fails i key ticket error)
        { s with cache := s.cache.release key
                 phase := Function.update s.phase i (.closing key ticket (.error error)) }
  | publishes {s : Shared ι κ α ε} {i : ι} {key : κ} {ticket : Nat} {outcome : Except ε α}
      (closing : s.phase i = .closing key ticket outcome) :
      Step s (.publishes i key ticket outcome)
        { s with phase := Function.update s.phase i .idle
                 published := Function.update s.published ticket (some outcome) }
  | receives {s : Shared ι κ α ε} {i : ι} {key : κ} {ticket : Nat} {outcome : Except ε α}
      (waiting : s.phase i = .waiting key ticket) (known : s.published ticket = some outcome) :
      Step s (.receives i key ticket outcome) { s with phase := Function.update s.phase i .idle }
  | leaves {s : Shared ι κ α ε} {i : ι} {key : κ} {ticket : Nat}
      (waiting : s.phase i = .waiting key ticket) :
      Step s (.leaves i key ticket) { s with phase := Function.update s.phase i .idle }
  | puts {s : Shared ι κ α ε} {i : ι} (idle : s.phase i = .idle) (key : κ) (value : α) :
      Step s (.puts i key value (s.cache.put key value).2)
        { s with cache := (s.cache.put key value).1 }
  | gets {s : Shared ι κ α ε} {i : ι} (idle : s.phase i = .idle) (key : κ) :
      Step s (.gets i key (s.cache.get? key)) s
  | clears (s : Shared ι κ α ε) : Step s .clears { s with cache := s.cache.clear }

/-- Steps of clients in some order. -/
inductive Run : Shared ι κ α ε → List (CacheEvent ι κ α ε) → Shared ι κ α ε → Prop where
  | nil (s : Shared ι κ α ε) : Run s [] s
  | snoc {s t u : Shared ι κ α ε} {events : List (CacheEvent ι κ α ε)} {event : CacheEvent ι κ α ε}
      (run : Run s events t) (step : Step t event u) : Run s (events ++ [event]) u

/-- Nobody has asked for anything yet. -/
structure Initial (s : Shared ι κ α ε) : Prop where
  noComputation : s.cache.inflight = []
  allIdle : ∀ i, s.phase i = .idle
  unpublished : ∀ ticket, s.published ticket = none

end Shared

namespace Phase

variable {κ α ε : Type}

def computed : Phase κ α ε → Option (κ × Nat)
  | .computing key ticket => some (key, ticket)
  | _ => none

/-- The key and the ticket of a client whose outcome is not published. -/
def owned : Phase κ α ε → Option (κ × Nat)
  | .computing key ticket | .closing key ticket _ => some (key, ticket)
  | .idle | .waiting _ _ => none

theorem owned_of_computed {phase : Phase κ α ε} {key : κ} {ticket : Nat}
    (computed : phase.computed = some (key, ticket)) : phase.owned = some (key, ticket) := by
  cases phase <;> cases computed
  rfl

theorem computed_of_owned {phase : Phase κ α ε} (free : phase.owned = none) : phase.computed = none := by
  cases phase <;> first | rfl | cases free

theorem computed_iff {phase : Phase κ α ε} {key : κ} {ticket : Nat} :
    phase.computed = some (key, ticket) ↔ phase = .computing key ticket := by
  cases phase <;> simp [computed]

end Phase

/-- What is seen of the clients after one of them took a step. -/
theorem update_view {ι β γ : Type} [DecidableEq ι] {f : ι → β} {i : ι} {b : β} (view : β → γ) :
    (fun j => view (Function.update f i b j)) = Function.update (fun j => view (f j)) i (view b) :=
  funext fun j => Function.apply_update (fun _ => view) f i b j

theorem update_same {ι β γ : Type} [DecidableEq ι] {f : ι → β} {i : ι} {b : β} (view : β → γ)
    (same : view b = view (f i)) : (fun j => view (Function.update f i b j)) = fun j => view (f j) := by
  rw [update_view, same]
  exact Function.update_eq_self i fun j => view (f j)

/-- A ticket has one owner until its outcome is published. -/
structure Tickets {ι κ α ε : Type} (owned : ι → Option (κ × Nat)) (issued : Nat)
    (published : Nat → Option (Except ε α)) : Prop where
  below : ∀ i key ticket, owned i = some (key, ticket) → ticket < issued
  single : ∀ i j key key' ticket, owned i = some (key, ticket) → owned j = some (key', ticket) → i = j
  pending : ∀ i key ticket, owned i = some (key, ticket) → published ticket = none
  past : ∀ ticket outcome, published ticket = some outcome → ticket < issued

namespace Tickets

variable {ι κ α ε : Type} [DecidableEq ι] {owned : ι → Option (κ × Nat)} {issued : Nat}
  {published : Nat → Option (Except ε α)}

theorem grant (tickets : Tickets owned issued published) (i : ι) (key : κ) :
    Tickets (Function.update owned i (some (key, issued))) (issued + 1) published := by
  have old : ∀ j key' ticket, Function.update owned i (some (key, issued)) j = some (key', ticket) →
      (j = i ∧ ticket = issued) ∨ (owned j = some (key', ticket) ∧ ticket < issued) := by
    intro j key' ticket holds
    by_cases here : j = i
    · subst here
      rw [Function.update_self] at holds
      cases holds
      exact .inl ⟨rfl, rfl⟩
    · rw [Function.update_of_ne here] at holds
      exact .inr ⟨holds, tickets.below j key' ticket holds⟩
  refine ⟨?_, ?_, ?_, ?_⟩
  · intro j key' ticket holds
    rcases old j key' ticket holds with ⟨-, rfl⟩ | ⟨-, below⟩ <;> omega
  · intro j k key' key'' ticket first second
    rcases old j key' ticket first with ⟨rfl, new⟩ | ⟨first, below⟩ <;>
      rcases old k key'' ticket second with ⟨rfl, new'⟩ | ⟨second, below'⟩
    · rfl
    · omega
    · omega
    · exact tickets.single j k key' key'' ticket first second
  · intro j key' ticket holds
    rcases old j key' ticket holds with ⟨-, rfl⟩ | ⟨holds, -⟩
    · cases found : published ticket with
      | none => rfl
      | some outcome => exact absurd (tickets.past ticket outcome found) (by omega)
    · exact tickets.pending j key' ticket holds
  · exact fun ticket outcome found => Nat.lt_succ_of_lt (tickets.past ticket outcome found)

theorem publish (tickets : Tickets owned issued published) {i : ι} {key : κ} {ticket : Nat}
    (holds : owned i = some (key, ticket)) (outcome : Except ε α) :
    Tickets (Function.update owned i none) issued
      (Function.update published ticket (some outcome)) := by
  have old : ∀ j key' ticket', Function.update owned i none j = some (key', ticket') →
      owned j = some (key', ticket') ∧ ticket' ≠ ticket := by
    intro j key' ticket' holds'
    by_cases here : j = i
    · subst here
      rw [Function.update_self] at holds'
      cases holds'
    · rw [Function.update_of_ne here] at holds'
      refine ⟨holds', fun same => here ?_⟩
      exact tickets.single j i key' key ticket (same ▸ holds') holds
  refine ⟨?_, ?_, ?_, ?_⟩
  · exact fun j key' ticket' holds' => tickets.below j key' ticket' (old j key' ticket' holds').1
  · exact fun j k key' key'' ticket' first second => tickets.single j k key' key'' ticket'
      (old j key' ticket' first).1 (old k key'' ticket' second).1
  · intro j key' ticket' holds'
    obtain ⟨before, other⟩ := old j key' ticket' holds'
    rw [Function.update_of_ne other]
    exact tickets.pending j key' ticket' before
  · intro ticket' outcome' found
    by_cases here : ticket' = ticket
    · exact here ▸ tickets.below i key ticket holds
    · rw [Function.update_of_ne here] at found
      exact tickets.past ticket' outcome' found

end Tickets

namespace Shared

variable {ι κ α ε : Type} [DecidableEq ι] [DecidableEq κ] {s s' : Shared ι κ α ε}
  {event : CacheEvent ι κ α ε}

/-- Tickets, computations and results belong together. -/
structure Coherent (s : Shared ι κ α ε) : Prop where
  tickets : Tickets (fun i => (s.phase i).owned) s.cache.issued s.published
  distinct : (s.cache.inflight.map Prod.fst).Nodup
  /-- The computations in the table are those that run. -/
  running : ∀ key ticket,
    (key, ticket) ∈ s.cache.inflight ↔ ∃ i, (s.phase i).computed = some (key, ticket)
  /-- A value that is about to be published is the stored one. -/
  stored : ∀ i key ticket value, s.phase i = .closing key ticket (.ok value) →
    s.cache.get? key = some value
  /-- Who waits for a ticket waits for its owner, or can have the outcome. -/
  awaited : ∀ i key ticket, s.phase i = .waiting key ticket →
    (∃ j, (s.phase j).owned = some (key, ticket)) ∨
      ∃ outcome, s.published ticket = some outcome ∧
        ∀ value, outcome = .ok value → s.cache.get? key = some value

theorem Step.keeps {key : κ} {value : α} (step : Step s event s') (noClear : event ≠ .clears)
    (found : s.cache.get? key = some value) : s'.cache.get? key = some value := by
  cases step with
  | hit idle claimed => rw [(Cache.claim_hit claimed).1]; exact found
  | joins idle claimed => rw [(Cache.claim_wait claimed).1]; exact found
  | owns idle claimed =>
    obtain ⟨-, -, -, rfl⟩ := Cache.claim_own claimed
    exact found
  | succeeds computing value => exact Cache.put_keeps found
  | fails computing error => exact found
  | publishes closing => exact found
  | receives waiting known => exact found
  | leaves waiting => exact found
  | puts idle key value => exact Cache.put_keeps found
  | gets idle key => exact found
  | clears => exact absurd rfl noClear

omit [DecidableEq ι] [DecidableEq κ] in
theorem coherent_of_initial [DecidableEq κ] (start : s.Initial) : s.Coherent := by
  obtain ⟨noComputation, allIdle, unpublished⟩ := start
  refine ⟨⟨?_, ?_, ?_, ?_⟩, ?_, ?_, ?_, ?_⟩ <;>
    simp [noComputation, allIdle, unpublished, Phase.owned, Phase.computed]

omit [DecidableEq ι] in
theorem Coherent.computing_unique (coherent : s.Coherent) {i j : ι} {key : κ} {ticket ticket' : Nat}
    (first : (s.phase i).computed = some (key, ticket))
    (second : (s.phase j).computed = some (key, ticket')) : i = j := by
  have here := (coherent.running key ticket).mpr ⟨i, first⟩
  have there := (coherent.running key ticket').mpr ⟨j, second⟩
  have same := List.inj_on_of_nodup_map coherent.distinct here there rfl
  obtain rfl : ticket = ticket' := congrArg Prod.snd same
  exact coherent.tickets.single i j key key ticket (Phase.owned_of_computed first)
    (Phase.owned_of_computed second)

/-- When a computation ends, its client closes it and the table forgets it. -/
theorem Coherent.close (coherent : s.Coherent) {i : ι} {key : κ} {ticket : Nat}
    (computing : s.phase i = .computing key ticket) {cache : Cache κ α} {outcome : Except ε α}
    (keeps : ∀ key value, s.cache.get? key = some value → cache.get? key = some value)
    (inflight : cache.inflight = s.cache.inflight) (issued : cache.issued = s.cache.issued)
    (isStored : ∀ value, outcome = .ok value → cache.get? key = some value) :
    Coherent { s with cache := cache.release key
                      phase := Function.update s.phase i (.closing key ticket outcome) } := by
  have isComputed : (s.phase i).computed = some (key, ticket) := Phase.computed_iff.mpr computing
  have owners : (fun j => (Function.update s.phase i (.closing key ticket outcome) j).owned) =
      fun j => (s.phase j).owned :=
    update_same Phase.owned (by rw [computing]; rfl)
  refine ⟨?_, ?_, ?_, ?_, ?_⟩
  · dsimp only
    rw [owners]
    exact issued ▸ coherent.tickets
  · exact (inflight ▸ coherent.distinct).sublist (List.filter_sublist.map _)
  · intro key' ticket'
    rw [Cache.mem_release, inflight, coherent.running]
    constructor
    · rintro ⟨⟨j, runs⟩, other⟩
      have apart : j ≠ i := by
        rintro rfl
        rw [isComputed] at runs
        cases runs
        exact other rfl
      exact ⟨j, by simpa [apart] using runs⟩
    · rintro ⟨j, runs⟩
      have apart : j ≠ i := by
        rintro rfl
        simp [Phase.computed] at runs
      have runs : (s.phase j).computed = some (key', ticket') := by simpa [apart] using runs
      refine ⟨⟨j, runs⟩, fun same => apart ?_⟩
      exact coherent.computing_unique (same ▸ runs) isComputed
  · intro j key' ticket' value closing
    by_cases here : j = i
    · subst here
      simp only [Function.update_self, Phase.closing.injEq] at closing
      obtain ⟨rfl, -, rfl⟩ := closing
      exact isStored value rfl
    · exact keeps key' value (coherent.stored j key' ticket' value (by simpa [here] using closing))
  · intro j key' ticket' waiting
    have apart : j ≠ i := by
      rintro rfl
      simp at waiting
    rcases coherent.awaited j key' ticket' (by simpa [apart] using waiting) with
      ⟨k, owns⟩ | ⟨outcome, known, found⟩
    · exact .inl ⟨k, (congrFun owners k).trans owns⟩
    · exact .inr ⟨outcome, known, fun value isValue => keeps key' value (found value isValue)⟩

theorem Coherent.rephase (coherent : s.Coherent) {i : ι} {phase : Phase κ α ε}
    (free : (s.phase i).owned = none) (stays : phase.owned = none)
    (waits : ∀ key ticket, phase = .waiting key ticket →
      ∃ j, (s.phase j).owned = some (key, ticket)) :
    Coherent { s with phase := Function.update s.phase i phase } := by
  have owners : (fun j => (Function.update s.phase i phase j).owned) = fun j => (s.phase j).owned :=
    update_same Phase.owned (stays.trans free.symm)
  have runs : (fun j => (Function.update s.phase i phase j).computed) =
      fun j => (s.phase j).computed :=
    update_same Phase.computed
      ((Phase.computed_of_owned stays).trans (Phase.computed_of_owned free).symm)
  refine ⟨by simpa only [owners] using coherent.tickets, coherent.distinct, ?_, ?_, ?_⟩
  · intro key ticket
    rw [coherent.running]
    exact exists_congr fun j => by rw [← congrFun runs j]
  · intro j key ticket value closing
    by_cases here : j = i
    · subst here
      simp only [Function.update_self] at closing
      subst closing
      cases stays
    · exact coherent.stored j key ticket value (by simpa [here] using closing)
  · intro j key ticket waiting
    have pending : (∃ k, (s.phase k).owned = some (key, ticket)) ∨
        ∃ outcome, s.published ticket = some outcome ∧
          ∀ value, outcome = .ok value → s.cache.get? key = some value := by
      by_cases here : j = i
      · subst here
        simp only [Function.update_self] at waiting
        exact .inl (waits key ticket waiting)
      · exact coherent.awaited j key ticket (by simpa [here] using waiting)
    exact pending.imp_left fun ⟨k, owns⟩ => ⟨k, (congrFun owners k).trans owns⟩

theorem Coherent.open (coherent : s.Coherent) {i : ι} {key : κ} (idle : s.phase i = .idle)
    (isNew : key ∉ s.cache.inflight.map Prod.fst) :
    Coherent { s with
      cache := { s.cache with inflight := s.cache.inflight ++ [(key, s.cache.issued)]
                              issued := s.cache.issued + 1 }
      phase := Function.update s.phase i (.computing key s.cache.issued) } := by
  have owners : (fun j => (Function.update s.phase i (.computing key s.cache.issued) j).owned) =
      Function.update (fun j => (s.phase j).owned) i (some (key, s.cache.issued)) :=
    update_view Phase.owned
  refine ⟨?_, ?_, ?_, ?_, ?_⟩
  · dsimp only
    rw [owners]
    exact coherent.tickets.grant i key
  · rw [List.map_append, List.map_singleton]
    exact coherent.distinct.append (List.nodup_singleton _) (List.disjoint_singleton.mpr isNew)
  · intro key' ticket'
    rw [List.mem_append, coherent.running, List.mem_singleton]
    constructor
    · rintro (⟨j, runs⟩ | new)
      · have apart : j ≠ i := by
          rintro rfl
          rw [idle] at runs
          cases runs
        exact ⟨j, by simpa [apart] using runs⟩
      · cases new
        exact ⟨i, by simp [Phase.computed]⟩
    · rintro ⟨j, runs⟩
      by_cases here : j = i
      · subst here
        simp only [Function.update_self, Phase.computed, Option.some.injEq] at runs
        exact .inr runs.symm
      · exact .inl ⟨j, by simpa [here] using runs⟩
  · intro j key' ticket' value closing
    have apart : j ≠ i := by
      rintro rfl
      simp at closing
    exact coherent.stored j key' ticket' value (by simpa [apart] using closing)
  · intro j key' ticket' waiting
    have apart : j ≠ i := by
      rintro rfl
      simp at waiting
    rcases coherent.awaited j key' ticket' (by simpa [apart] using waiting) with ⟨k, owns⟩ | known
    · have other : k ≠ i := by
        rintro rfl
        rw [idle] at owns
        cases owns
      exact .inl ⟨k, by simpa [other] using owns⟩
    · exact .inr known

theorem Coherent.publish (coherent : s.Coherent) {i : ι} {key : κ} {ticket : Nat}
    {outcome : Except ε α} (closing : s.phase i = .closing key ticket outcome) :
    Coherent { s with phase := Function.update s.phase i .idle
                      published := Function.update s.published ticket (some outcome) } := by
  have owned_i : (s.phase i).owned = some (key, ticket) := by rw [closing]; rfl
  have owners : (fun j => (Function.update s.phase i .idle j).owned) =
      Function.update (fun j => (s.phase j).owned) i none :=
    update_view Phase.owned
  have runs : (fun j => (Function.update s.phase i .idle j).computed) =
      fun j => (s.phase j).computed :=
    update_same Phase.computed (by rw [closing]; rfl)
  refine ⟨?_, coherent.distinct, ?_, ?_, ?_⟩
  · dsimp only
    rw [owners]
    exact coherent.tickets.publish owned_i outcome
  · intro key' ticket'
    rw [coherent.running]
    exact exists_congr fun j => by rw [← congrFun runs j]
  · intro j key' ticket' value closing'
    have apart : j ≠ i := by
      rintro rfl
      simp at closing'
    exact coherent.stored j key' ticket' value (by simpa [apart] using closing')
  · intro j key' ticket' waiting
    have apart : j ≠ i := by
      rintro rfl
      simp at waiting
    rcases coherent.awaited j key' ticket' (by simpa [apart] using waiting) with
      ⟨k, owns⟩ | ⟨outcome', known, found⟩
    · by_cases here : k = i
      · subst here
        rw [owned_i] at owns
        cases owns
        exact .inr ⟨outcome, by simp, fun value same => coherent.stored k _ _ value (same ▸ closing)⟩
      · exact .inl ⟨k, by simpa [here] using owns⟩
    · have other : ticket' ≠ ticket := by
        rintro rfl
        have unpublished := coherent.tickets.pending i key ticket' owned_i
        rw [known] at unpublished
        cases unpublished
      exact .inr ⟨outcome', by simpa [other] using known, found⟩

omit [DecidableEq ι] in
theorem Coherent.put (coherent : s.Coherent) (key : κ) (value : α) :
    Coherent { s with cache := (s.cache.put key value).1 } := by
  obtain ⟨inflight, issued⟩ := Cache.put_inflight s.cache key value
  refine ⟨issued ▸ coherent.tickets, inflight ▸ coherent.distinct, inflight ▸ coherent.running, ?_, ?_⟩
  · exact fun i key' ticket value' closing =>
      Cache.put_keeps (coherent.stored i key' ticket value' closing)
  · intro i key' ticket waiting
    rcases coherent.awaited i key' ticket waiting with owns | ⟨outcome, known, found⟩
    · exact .inl owns
    · exact .inr ⟨outcome, known, fun value' same => Cache.put_keeps (found value' same)⟩

theorem Step.coherent (step : Step s event s') (coherent : s.Coherent) (noClear : event ≠ .clears) :
    s'.Coherent := by
  cases step with
  | hit idle claimed =>
    obtain ⟨rfl, -⟩ := Cache.claim_hit claimed
    exact coherent
  | joins idle claimed =>
    obtain ⟨rfl, -, found⟩ := Cache.claim_wait claimed
    refine coherent.rephase (by rw [idle]; rfl) rfl ?_
    rintro key ticket ⟨⟩
    obtain ⟨j, computes⟩ := (coherent.running _ _).mp (Cache.mem_of_ticket? found)
    exact ⟨j, Phase.owned_of_computed computes⟩
  | owns idle claimed =>
    obtain ⟨-, isNew, rfl, rfl⟩ := Cache.claim_own claimed
    exact coherent.open idle (Cache.ticket?_eq_none.mp isNew)
  | @succeeds i key ticket computing value =>
    obtain ⟨inflight, issued⟩ := Cache.put_inflight s.cache key value
    refine coherent.close computing (fun _ _ => Cache.put_keeps) inflight issued ?_
    rintro value' ⟨⟩
    exact Cache.put_stored s.cache key value
  | fails computing error =>
    exact coherent.close computing (fun _ _ found => found) rfl rfl (fun _ same => by cases same)
  | publishes closing => exact coherent.publish closing
  | receives waiting known =>
    exact coherent.rephase (by rw [waiting]; rfl) rfl (fun _ _ same => by cases same)
  | leaves waiting =>
    exact coherent.rephase (by rw [waiting]; rfl) rfl (fun _ _ same => by cases same)
  | puts idle key value => exact coherent.put key value
  | gets idle key => exact coherent
  | clears => exact absurd rfl noClear

/-! ## What has happened so far -/

theorem Step.publishedKeeps {ticket : Nat} {outcome : Except ε α} (step : Step s event s')
    (coherent : s.Coherent) (known : s.published ticket = some outcome) :
    s'.published ticket = some outcome := by
  cases step with
  | @publishes i key ticket' outcome' closing =>
    have other : ticket ≠ ticket' := by
      rintro rfl
      have unpublished := coherent.tickets.pending i key ticket (by rw [closing]; rfl)
      rw [known] at unpublished
      cases unpublished
    simpa [other] using known
  | _ => exact known

/-- An outcome that waits to be published still waits or is published. -/
theorem Step.closingKeeps {j : ι} {key : κ} {ticket : Nat} {outcome : Except ε α}
    (step : Step s event s') (closing : s.phase j = .closing key ticket outcome) :
    s'.phase j = .closing key ticket outcome ∨ s'.published ticket = some outcome := by
  have stays : ∀ {i : ι} {phase : Phase κ α ε}, s.phase i ≠ .closing key ticket outcome →
      Function.update s.phase i phase j = .closing key ticket outcome := by
    intro i phase differs
    have apart : j ≠ i := by
      rintro rfl
      exact differs closing
    rw [Function.update_of_ne apart, closing]
  cases step with
  | hit | puts | gets | clears => exact .inl closing
  | joins idle | owns idle => exact .inl (stays (by simp [idle]))
  | succeeds computing | fails computing => exact .inl (stays (by simp [computing]))
  | receives waiting | leaves waiting => exact .inl (stays (by simp [waiting]))
  | @publishes i key' ticket' outcome' closing' =>
    by_cases here : j = i
    · subst here
      rw [closing] at closing'
      cases closing'
      exact .inr (by simp)
    · exact .inl (by simpa [here] using closing)

theorem Step.computed {i : ι} {key : κ} {ticket : Nat} (step : Step s event s')
    (computing : (s'.phase i).computed = some (key, ticket)) :
    (s.phase i).computed = some (key, ticket) ∨ s.cache.get? key = none := by
  have before : ∀ {j : ι} {phase : Phase κ α ε}, phase.computed = none →
      (Function.update s.phase j phase i).computed = some (key, ticket) →
      (s.phase i).computed = some (key, ticket) := by
    intro j phase free holds
    have apart : i ≠ j := by
      rintro rfl
      rw [Function.update_self, free] at holds
      cases holds
    rwa [Function.update_of_ne apart] at holds
  cases step with
  | hit | puts | gets | clears => exact .inl computing
  | joins | succeeds | fails | publishes | receives | leaves => exact .inl (before rfl computing)
  | @owns j key' cache ticket' idle claimed =>
    by_cases here : i = j
    · subst here
      simp only [Function.update_self, Phase.computed, Option.some.injEq] at computing
      cases computing
      exact .inr (Cache.claim_own claimed).1
    · exact .inl (by simpa [here] using computing)

/-- What the steps so far leave in a state. -/
structure History (events : List (CacheEvent ι κ α ε)) (s : Shared ι κ α ε) : Prop where
  /-- Whoever got a value got the stored one. -/
  results : ∀ event ∈ events, ∀ key value, event.result? = some (key, .ok value) →
    s.cache.get? key = some value
  /-- Whoever got the outcome of a ticket got the published one. -/
  settled : ∀ event ∈ events, ∀ ticket outcome, event.settled? = some (ticket, outcome) →
    s.published ticket = some outcome
  /-- The error of a failed computation waits to be published or is published. -/
  failed : ∀ i key ticket error, .fails i key ticket error ∈ events →
    (∃ j key', s.phase j = .closing key' ticket (.error error)) ∨
      s.published ticket = some (.error error)
  /-- A computation succeeds once, and then the key is not computed again. -/
  once : ∀ key, (events.filter (·.isSuccess key)).length ≤ 1
  finished : ∀ key, ∀ event ∈ events, event.isSuccess key →
    (∃ value, s.cache.get? key = some value) ∧ ∀ i ticket, (s.phase i).computed ≠ some (key, ticket)

theorem Step.result {key : κ} {value : α} (step : Step s event s') (coherent : s.Coherent)
    (isResult : event.result? = some (key, .ok value)) : s'.cache.get? key = some value := by
  cases step with
  | hit idle claimed =>
    cases isResult
    obtain ⟨rfl, found⟩ := Cache.claim_hit claimed
    exact found
  | publishes closing =>
    cases isResult
    exact coherent.stored _ _ _ _ closing
  | receives waiting known =>
    cases isResult
    rcases coherent.awaited _ _ _ waiting with ⟨j, owns⟩ | ⟨outcome, known', found⟩
    · have unpublished := coherent.tickets.pending j _ _ owns
      rw [known] at unpublished
      cases unpublished
    · rw [known] at known'
      cases known'
      exact found value rfl
  | puts idle key value' =>
    cases isResult
    exact Cache.put_stored s.cache key value'
  | @gets i idle key' =>
    cases found : s.cache.get? key' with
    | none => simp [CacheEvent.result?, found] at isResult
    | some stored =>
      simp only [CacheEvent.result?, found, Option.some.injEq, Prod.mk.injEq] at isResult
      obtain ⟨rfl, same⟩ := isResult
      cases same
      exact found
  | joins | owns | succeeds | fails | leaves | clears => cases isResult

theorem Step.settled {ticket : Nat} {outcome : Except ε α} (step : Step s event s')
    (isSettled : event.settled? = some (ticket, outcome)) : s'.published ticket = some outcome := by
  cases step with
  | publishes closing =>
    cases isSettled
    simp
  | receives waiting known =>
    cases isSettled
    exact known
  | _ => cases isSettled

theorem Step.success {key : κ} (step : Step s event s') (coherent : s.Coherent)
    (succeeds : event.isSuccess key) :
    ((∃ i ticket, (s.phase i).computed = some (key, ticket)) ∧
      ∃ value, s'.cache.get? key = some value) ∧
      ∀ i ticket, (s'.phase i).computed ≠ some (key, ticket) := by
  cases step with
  | @succeeds i key' ticket computing value =>
    obtain rfl : key' = key := by simpa [CacheEvent.isSuccess] using succeeds
    have isComputed : (s.phase i).computed = some (key', ticket) := Phase.computed_iff.mpr computing
    refine ⟨⟨⟨i, ticket, isComputed⟩, _, Cache.put_stored s.cache key' value⟩, ?_⟩
    intro j ticket' again
    by_cases here : j = i
    · subst here
      simp [Phase.computed] at again
    · exact here (coherent.computing_unique (by simpa [here] using again) isComputed)
  | _ => cases succeeds

theorem Step.history {events : List (CacheEvent ι κ α ε)} (step : Step s event s')
    (coherent : s.Coherent) (noClear : event ≠ .clears) (history : s.History events) :
    s'.History (events ++ [event]) := by
  refine ⟨?_, ?_, ?_, ?_, ?_⟩
  · intro past member key value isResult
    rcases List.mem_append.mp member with earlier | now
    · exact step.keeps noClear (history.results past earlier key value isResult)
    · obtain rfl := List.mem_singleton.mp now
      exact step.result coherent isResult
  · intro past member ticket outcome isSettled
    rcases List.mem_append.mp member with earlier | now
    · exact step.publishedKeeps coherent (history.settled past earlier ticket outcome isSettled)
    · obtain rfl := List.mem_singleton.mp now
      exact step.settled isSettled
  · intro i key ticket error member
    rcases List.mem_append.mp member with earlier | now
    · rcases history.failed i key ticket error earlier with ⟨j, key', closing⟩ | known
      · exact (step.closingKeeps closing).imp_left fun stays => ⟨j, key', stays⟩
      · exact .inr (step.publishedKeeps coherent known)
    · obtain rfl := List.mem_singleton.mp now
      cases step
      exact .inl ⟨i, key, by simp⟩
  · intro key
    rw [List.filter_append, List.length_append]
    by_cases succeeds : event.isSuccess key
    · -- the key is being computed, so no computation of it has succeeded before
      obtain ⟨⟨⟨i, ticket, computes⟩, -⟩, -⟩ := step.success coherent succeeds
      have noneBefore : events.filter (·.isSuccess key) = [] := by
        refine List.filter_eq_nil_iff.mpr fun past member isSuccess => ?_
        exact (history.finished key past member isSuccess).2 i ticket computes
      simp [noneBefore, succeeds]
    · simpa [succeeds] using history.once key
  · intro key past member isSuccess
    rcases List.mem_append.mp member with earlier | now
    · obtain ⟨⟨value, found⟩, quiet⟩ := history.finished key past earlier isSuccess
      refine ⟨⟨value, step.keeps noClear found⟩, fun i ticket computes => ?_⟩
      rcases step.computed computes with before | absent
      · exact quiet i ticket before
      · rw [found] at absent
        cases absent
    · obtain rfl := List.mem_singleton.mp now
      obtain ⟨⟨-, found⟩, quiet⟩ := step.success coherent isSuccess
      exact ⟨found, quiet⟩

/-! ## Agreement -/

section Runs

variable {s₀ : Shared ι κ α ε} {events : List (CacheEvent ι κ α ε)}

theorem Run.keeps {key : κ} {value : α} (run : Run s events s') (noClear : .clears ∉ events)
    (found : s.cache.get? key = some value) : s'.cache.get? key = some value := by
  induction run with
  | nil => exact found
  | snoc run step ih =>
    simp only [List.mem_append, List.mem_singleton, not_or] at noClear
    exact step.keeps (Ne.symm noClear.2) (ih noClear.1)

theorem Run.invariant (start : s₀.Initial) (run : Run s₀ events s) (noClear : .clears ∉ events) :
    s.Coherent ∧ s.History events := by
  induction run with
  | nil => exact ⟨coherent_of_initial start, by constructor <;> simp⟩
  | snoc run step ih =>
    simp only [List.mem_append, List.mem_singleton, not_or] at noClear
    obtain ⟨coherent, history⟩ := ih noClear.1
    exact ⟨step.coherent coherent (Ne.symm noClear.2),
      step.history coherent (Ne.symm noClear.2) history⟩

omit [DecidableEq ι] in
/-- Whoever gets the outcome of a failed computation gets its error. -/
theorem History.error_received (coherent : s.Coherent) (history : s.History events) {i : ι} {key : κ}
    {ticket : Nat} {error : ε} (failed : .fails i key ticket error ∈ events)
    {past : CacheEvent ι κ α ε} (member : past ∈ events) {outcome : Except ε α}
    (isSettled : past.settled? = some (ticket, outcome)) : outcome = .error error := by
  have known := history.settled past member ticket outcome isSettled
  rcases history.failed i key ticket error failed with ⟨j, key', closing⟩ | known'
  · have unpublished := coherent.tickets.pending j key' ticket (by rw [closing]; rfl)
    rw [known] at unpublished
    cases unpublished
  · exact Option.some.inj (known.symm.trans known')

omit [DecidableEq ι] in
theorem Coherent.nothing_inflight (coherent : s.Coherent) (allIdle : ∀ i, s.phase i = .idle) :
    s.cache.inflight = [] := by
  refine List.eq_nil_iff_forall_not_mem.mpr ?_
  rintro ⟨key, ticket⟩ member
  obtain ⟨i, computes⟩ := (coherent.running key ticket).mp member
  rw [allIdle i] at computes
  cases computes

/-- The clients of a cache agree, as long as nobody clears it: a result stays as it is; a call that
ends with a value ends with the stored one; a key has one computation at a time, none begins once it
has a result, and at most one succeeds; a computation that fails changes no result and its error is
what the calls that wait for it end with, and none waits in vain; and nothing is left in flight when
no call is active. -/
theorem clients_agree (start : s₀.Initial) (run : Run s₀ events s) (noClear : .clears ∉ events) :
    (∀ later s', Run s later s' → .clears ∉ later → ∀ key value,
      s.cache.get? key = some value → s'.cache.get? key = some value) ∧
    (∀ event ∈ events, ∀ key value, event.result? = some (key, .ok value) →
      s.cache.get? key = some value) ∧
    (∀ i j key ticket ticket', s.phase i = .computing key ticket →
      s.phase j = .computing key ticket' → i = j) ∧
    (∀ i key ticket s', Step s (.owns i key ticket) s' → s.cache.get? key = none) ∧
    (∀ key, (events.filter (·.isSuccess key)).length ≤ 1) ∧
    (∀ i key ticket error s', Step s (.fails i key ticket error) s' →
      s'.cache.entries = s.cache.entries) ∧
    (∀ i key ticket error, .fails i key ticket error ∈ events →
      ∀ event ∈ events, ∀ outcome, event.settled? = some (ticket, outcome) →
        outcome = .error error) ∧
    (∀ i key ticket, s.phase i = .waiting key ticket →
      (∃ j, (s.phase j).owned = some (key, ticket)) ∨
        ∃ outcome s', Step s (.receives i key ticket outcome) s') ∧
    ((∀ i, s.phase i = .idle) → s.cache.inflight = []) := by
  obtain ⟨coherent, history⟩ := run.invariant start noClear
  refine ⟨?_, history.results, ?_, ?_, history.once, ?_, ?_, ?_, coherent.nothing_inflight⟩
  · exact fun later s' next noClear' key value found => next.keeps noClear' found
  · exact fun i j key ticket ticket' first second => coherent.computing_unique
      (Phase.computed_iff.mpr first) (Phase.computed_iff.mpr second)
  · intro i key ticket s' step
    cases step with
    | owns idle claimed => exact (Cache.claim_own claimed).1
  · intro i key ticket error s' step
    cases step
    rfl
  · exact fun i key ticket error failed event member outcome isSettled =>
      history.error_received coherent failed member isSettled
  · intro i key ticket waiting
    refine (coherent.awaited i key ticket waiting).imp_right ?_
    rintro ⟨outcome, known, -⟩
    exact ⟨outcome, _, .receives waiting known⟩

/-- Two clients and one key: the first computation fails while the other client waits for it, and the
second one ends after somebody else has stored a value. -/
theorem two_clients_agree :
    let s₀ : Shared Bool Nat Nat String :=
      { cache := {}, phase := fun _ => .idle, published := fun _ => none }
    let events : List (CacheEvent Bool Nat Nat String) :=
      [.owns true 0 0, .joins false 0 0, .fails true 0 0 "boom", .publishes true 0 0 (.error "boom"),
        .receives false 0 0 (.error "boom"), .owns false 0 1, .puts true 0 7 7, .succeeds false 0 1 8,
        .publishes false 0 1 (.ok 7)]
    ∃ s, Run s₀ events s ∧ s.cache.get? 0 = some 7 ∧ s.cache.inflight = [] := by
  intro s₀ events
  have start : s₀.Initial := ⟨rfl, fun _ => rfl, fun _ => rfl⟩
  have first := Run.nil s₀ |>.snoc (.owns rfl rfl : Step _ (.owns true 0 0) _) |>.snoc
    (.joins rfl rfl : Step _ (.joins false 0 0) _)
  have failed := first.snoc (.fails (i := true) rfl "boom") |>.snoc (.publishes (i := true) rfl) |>.snoc
    (.receives (i := false) rfl rfl)
  have retried := failed.snoc (.owns rfl rfl : Step _ (.owns false 0 1) _) |>.snoc
    (.puts (i := true) rfl 0 7) |>.snoc (.succeeds (i := false) rfl 8)
  have run : Run s₀ events _ := retried.snoc (.publishes (i := false) rfl)
  obtain ⟨-, results, -, -, -, -, -, -, quiet⟩ := clients_agree start run (by simp [events])
  refine ⟨_, run, results (.publishes false 0 1 (.ok 7)) (by simp [events]) 0 7 rfl, quiet fun i => ?_⟩
  cases i <;> rfl

end Runs

end Shared

end MacroExpand
