import MacroExpand.Proofs.Clearing

/-!
# Cancelled calls

A call can be cancelled while it waits for somebody else's computation, and while it runs its own.  A waiter that is
cancelled leaves no trace: the others go on as if it had never asked.  An owner that is cancelled closes its
computation with the cancellation as with any other error, so it is published, and all who wait for the ticket end with
it as well.  Computations do not end with cancellations by themselves, so there is no other way to end with one.
-/

set_option autoImplicit false

namespace MacroExpand

/-! ## Clients and cancellations of steps -/

namespace CacheEvent

variable {ι κ α ε : Type} {cancelled : ε}

/-- The client that takes a step; a clear is nobody's. -/
def client? : CacheEvent ι κ α ε → Option ι
  | .hit i .. | .joins i .. | .owns i .. | .succeeds i .. | .fails i .. | .publishes i .. | .receives i ..
  | .leaves i .. | .puts i .. | .gets i .. => some i
  | .clears => none

/-- The call of a client is cancelled in a step: while it waits, or while its computation runs. -/
inductive Cancels (cancelled : ε) (i : ι) : CacheEvent ι κ α ε → Prop where
  | waiting (key : κ) (ticket : Nat) : Cancels cancelled i (.leaves i key ticket)
  | computing (key : κ) (ticket : Nat) : Cancels cancelled i (.fails i key ticket cancelled)

/-- The call of a client ends with a cancellation in a step. -/
inductive EndsCancelled (cancelled : ε) (i : ι) : CacheEvent ι κ α ε → Prop where
  | left (key : κ) (ticket : Nat) : EndsCancelled cancelled i (.leaves i key ticket)
  | published (key : κ) (ticket : Nat) : EndsCancelled cancelled i (.publishes i key ticket (.error cancelled))
  | received (key : κ) (ticket : Nat) : EndsCancelled cancelled i (.receives i key ticket (.error cancelled))

end CacheEvent

namespace Shared

variable {ι κ α ε : Type} [DecidableEq ι] [DecidableEq κ] {s s' : Shared ι κ α ε} {event : CacheEvent ι κ α ε}
  {events before after : List (CacheEvent ι κ α ε)} {i : ι} {key : κ} {ticket : Nat}

/-! ## Where errors come from -/

/-- Errors that wait to be published, or are, ended a computation under their ticket. -/
structure Traced (events : List (CacheEvent ι κ α ε)) (s : Shared ι κ α ε) : Prop where
  closing : ∀ i key ticket error, s.phase i = .closing key ticket (.error error) → .fails i key ticket error ∈ events
  published : ∀ ticket error, s.published ticket = some (.error error) → ∃ i key, .fails i key ticket error ∈ events

theorem Step.traced (step : Step s event s') (traced : s.Traced events) : s'.Traced (events ++ [event]) := by
  have stays : ∀ {j : ι} {phase : Phase κ α ε}, (∀ key ticket error, phase ≠ .closing key ticket (.error error)) →
      ∀ i key ticket error, Function.update s.phase j phase i = .closing key ticket (.error error) →
        .fails i key ticket error ∈ events ++ [event] := by
    intro j phase other i key ticket error closing
    by_cases here : i = j
    · subst here
      rw [Function.update_self] at closing
      exact absurd closing (other key ticket error)
    · rw [Function.update_of_ne here] at closing
      exact List.mem_append_left _ (traced.closing i key ticket error closing)
  have known : ∀ ticket error, s.published ticket = some (.error error) →
      ∃ i key, .fails i key ticket error ∈ events ++ [event] := by
    intro ticket error published
    obtain ⟨i, key, member⟩ := traced.published ticket error published
    exact ⟨i, key, List.mem_append_left _ member⟩
  cases step with
  | hit | puts | gets | clears =>
    exact ⟨fun i key ticket error closing => List.mem_append_left _ (traced.closing i key ticket error closing), known⟩
  | joins | owns | succeeds | receives | leaves => exact ⟨stays (by simp), known⟩
  | @fails j key' ticket' computing error' =>
    refine ⟨fun i key ticket error closing => ?_, known⟩
    dsimp only at closing
    by_cases here : i = j
    · subst here
      simp only [Function.update_self, Phase.closing.injEq, Except.error.injEq] at closing
      obtain ⟨rfl, rfl, rfl⟩ := closing
      simp
    · rw [Function.update_of_ne here] at closing
      exact List.mem_append_left _ (traced.closing i key ticket error closing)
  | @publishes j key' ticket' outcome closing =>
    refine ⟨stays (by simp), fun ticket error published => ?_⟩
    dsimp only at published
    by_cases here : ticket = ticket'
    · subst here
      rw [Function.update_self, Option.some.injEq] at published
      exact ⟨j, key', List.mem_append_left _ (traced.closing j key' ticket error (published ▸ closing))⟩
    · rw [Function.update_of_ne here] at published
      exact known ticket error published

theorem Run.traced (run : Run s events s') (start : s.Initial) : s'.Traced events := by
  induction run with
  | nil => exact ⟨by simp [start.allIdle], by simp [start.unpublished]⟩
  | snoc run step ih => exact step.traced ih

/-! ## Without a waiter -/

theorem Step.frame (step : Step s event s') (other : event.client? ≠ some i) (phase : Phase κ α ε) :
    Step { s with phase := Function.update s.phase i phase } event
      { s' with phase := Function.update s'.phase i phase } := by
  have apart : ∀ {j : ι}, event.client? = some j → j ≠ i := by
    rintro j isClient rfl
    exact other isClient
  have stands : ∀ {j : ι} {p : Phase κ α ε}, j ≠ i → s.phase j = p → Function.update s.phase i phase j = p :=
    fun apart holds => (Function.update_of_ne apart ..).trans holds
  have swaps : ∀ {j : ι} (p : Phase κ α ε), j ≠ i →
      Function.update (Function.update s.phase j p) i phase = Function.update (Function.update s.phase i phase) j p :=
    fun p apart => Function.update_comm apart ..
  cases step with
  | hit idle claimed => exact .hit (stands (apart rfl) idle) claimed
  | puts idle key value => exact .puts (stands (apart rfl) idle) key value
  | gets idle key => exact .gets (stands (apart rfl) idle) key
  | clears => exact .clears _
  | joins idle claimed =>
    rw [swaps _ (apart rfl)]
    exact .joins (stands (apart rfl) idle) claimed
  | owns idle claimed =>
    rw [swaps _ (apart rfl)]
    exact .owns (stands (apart rfl) idle) claimed
  | succeeds computing value =>
    rw [swaps _ (apart rfl)]
    exact .succeeds (stands (apart rfl) computing) value
  | fails computing error =>
    rw [swaps _ (apart rfl)]
    exact .fails (stands (apart rfl) computing) error
  | publishes closing =>
    rw [swaps _ (apart rfl)]
    exact .publishes (stands (apart rfl) closing)
  | receives waiting known =>
    rw [swaps _ (apart rfl)]
    exact .receives (stands (apart rfl) waiting) known
  | leaves waiting =>
    rw [swaps _ (apart rfl)]
    exact .leaves (stands (apart rfl) waiting)

theorem Run.frame (run : Run s events s') (others : ∀ event ∈ events, event.client? ≠ some i) (phase : Phase κ α ε) :
    Run { s with phase := Function.update s.phase i phase } events
      { s' with phase := Function.update s'.phase i phase } := by
  induction run with
  | nil => exact .nil _
  | snoc run step ih =>
    refine (ih fun event member => others event (List.mem_append_left _ member)).snoc (step.frame ?_ phase)
    exact others _ (by simp)

theorem Run.append {middle : Shared ι κ α ε} (first : Run s before middle) (second : Run middle after s') :
    Run s (before ++ after) s' := by
  induction second with
  | nil => rwa [List.append_nil]
  | snoc run step ih =>
    rw [← List.append_assoc]
    exact ih.snoc step

theorem Run.uncons (run : Run s (event :: after) s') : ∃ middle, Step s event middle ∧ Run middle after s' := by
  rw [← List.singleton_append] at run
  obtain ⟨middle, first, rest⟩ := run.split
  obtain ⟨unmoved, none, step⟩ : ∃ t, Run s [] t ∧ Step t event middle := first.unsnoc
  rw [none.of_nil] at step
  exact ⟨middle, step, rest⟩

/-- A run in which a client joins and leaves without a step in between is a run without its steps. -/
theorem Run.drop_waiter {between : List (CacheEvent ι κ α ε)}
    (run : Run s (before ++ .joins i key ticket :: (between ++ .leaves i key ticket :: after)) s')
    (others : ∀ event ∈ between, event.client? ≠ some i) : Run s (before ++ (between ++ after)) s' := by
  obtain ⟨joining, first, rest⟩ := run.split
  obtain ⟨joined, joins, rest⟩ := rest.uncons
  obtain ⟨leaving, middle, rest⟩ := rest.split
  obtain ⟨left, leaves, last⟩ := rest.uncons
  refine first.append (Run.append ?_ last)
  -- Joining changes the phase of the client only, and leaving makes it idle again.
  have isLeft : left = { leaving with phase := Function.update leaving.phase i .idle } := by
    cases leaves with
    | leaves waiting => rfl
  cases joins with
  | joins idle claimed =>
    obtain ⟨rfl, -, -⟩ := Cache.claim_wait claimed
    have framed := middle.frame others .idle
    rw [Function.update_idem, ← isLeft, ← idle, Function.update_eq_self] at framed
    exact framed

/-! ## Who ends with a cancellation -/

variable {s₀ : Shared ι κ α ε}

/-- A call that ends with a cancellation was cancelled, or has waited for the ticket of an owner that was: the step is
a cancellation itself, or the outcome of a ticket whose computation was cancelled, the caller's own or somebody else's.
And whoever is cancelled while waiting might as well not have asked: the same run without it is one. -/
theorem cancellations_come_from_owners (start : s₀.Initial) (run : Run s₀ events s) (cancelled : ε) :
    (∀ before event after i, events = before ++ event :: after → event.EndsCancelled cancelled i →
      event.Cancels cancelled i ∨
      (∃ key ticket, event = .publishes i key ticket (.error cancelled) ∧ .fails i key ticket cancelled ∈ before) ∨
      ∃ key ticket j key', event = .receives i key ticket (.error cancelled) ∧
        .fails j key' ticket cancelled ∈ before) ∧
    ∀ before between after i key ticket,
      events = before ++ .joins i key ticket :: (between ++ .leaves i key ticket :: after) →
      (∀ event ∈ between, event.client? ≠ some i) → Run s₀ (before ++ (between ++ after)) s := by
  constructor
  · rintro before event after i rfl ends
    obtain ⟨middle, first, rest⟩ := run.split
    obtain ⟨next, step, -⟩ := rest.uncons
    have traced := first.traced start
    cases ends with
    | left key ticket => exact .inl (.waiting key ticket)
    | published key ticket =>
      cases step with
      | publishes closing => exact .inr (.inl ⟨key, ticket, rfl, traced.closing i key ticket cancelled closing⟩)
    | received key ticket =>
      cases step with
      | receives waiting known =>
        obtain ⟨j, key', failed⟩ := traced.published ticket cancelled known
        exact .inr (.inr ⟨key, ticket, j, key', rfl, failed⟩)
  · rintro before between after i key ticket rfl others
    exact run.drop_waiter others

/-- An owner that is cancelled while somebody waits, and what the two end with. -/
def ownerCancelled : List (CacheEvent Bool Nat Unit String) :=
  [.owns true 0 0, .joins false 0 0, .fails true 0 0 "cancelled", .publishes true 0 0 (.error "cancelled"),
    .receives false 0 0 (.error "cancelled")]

/-- The waiter ends with a cancellation although it was not cancelled. -/
theorem waiter_ends_cancelled :
    let s₀ : Shared Bool Nat Unit String := { cache := {}, phase := fun _ => .idle, published := fun _ => none }
    (∃ s, Run s₀ ownerCancelled s) ∧ (∀ event ∈ ownerCancelled, ¬ event.Cancels "cancelled" false) ∧
      ∃ event ∈ ownerCancelled, event.EndsCancelled "cancelled" false := by
  intro s₀
  have owned := Run.nil s₀ |>.snoc (.owns rfl rfl : Step _ (.owns true 0 0) _) |>.snoc
    (.joins rfl rfl : Step _ (.joins false 0 0) _)
  have ended := owned.snoc (.fails (i := true) rfl "cancelled") |>.snoc (.publishes (i := true) rfl)
  refine ⟨⟨_, ended.snoc (.receives (i := false) rfl rfl)⟩, fun event member cancels => ?_, _, ?_, .received 0 0⟩
  · cases cancels <;> simp [ownerCancelled] at member
  · simp [ownerCancelled]

/-- The owner that the waiter has waited for was cancelled. -/
theorem waiter_ends_with_owner :
    let s₀ : Shared Bool Nat Unit String := { cache := {}, phase := fun _ => .idle, published := fun _ => none }
    ∃ s, Run s₀ ownerCancelled s ∧ ∃ j key', .fails j key' 0 "cancelled" ∈ ownerCancelled := by
  intro s₀
  have start : s₀.Initial := ⟨rfl, fun _ => rfl, fun _ => rfl⟩
  have owned := Run.nil s₀ |>.snoc (.owns rfl rfl : Step _ (.owns true 0 0) _) |>.snoc
    (.joins rfl rfl : Step _ (.joins false 0 0) _)
  have ended := owned.snoc (.fails (i := true) rfl "cancelled") |>.snoc (.publishes (i := true) rfl)
  have run : Run s₀ ownerCancelled _ := ended.snoc (.receives (i := false) rfl rfl)
  have origin := (cancellations_come_from_owners start run "cancelled").1 (ownerCancelled.take 4)
    (.receives false 0 0 (.error "cancelled")) [] false rfl (.received 0 0)
  rcases origin with cancels | ⟨key, ticket, same, -⟩ | ⟨key, ticket, j, key', same, failed⟩
  · cases cancels
  · cases same
  · cases same
    exact ⟨_, run, j, key', List.mem_of_mem_take failed⟩

end Shared

end MacroExpand
