import MacroExpand.Proofs.Clients
import Mathlib.Data.List.Induction

/-!
# Computations and clears

A clear empties the table of computations while their owners still run, so an owner from before the
clear and a new one of the same key can run at once.  A computation that fails takes whatever the table
holds for its key out of it.  As long as no computation from before some point fails for a key, at
most one computation that began after that point runs for the key, and whoever asks for the key waits
for it or gets a stored result.  When one does fail, a third computation can begin beside the second.
-/

set_option autoImplicit false

namespace MacroExpand

namespace Shared

variable {ι κ α ε : Type} [DecidableEq ι] [DecidableEq κ] {s s' : Shared ι κ α ε}
  {event : CacheEvent ι κ α ε} {events before after : List (CacheEvent ι κ α ε)} {since : Nat} {key : κ}

/-! ## Runs, clears included -/

theorem Run.of_nil (run : Run s [] s') : s' = s := by
  generalize whole : [] = events at run
  cases run with
  | nil => rfl
  | snoc run step => exact absurd whole (by simp)

theorem Run.unsnoc (run : Run s (events ++ [event]) s') : ∃ middle, Run s events middle ∧ Step middle event s' := by
  generalize whole : events ++ [event] = all at run
  cases run with
  | nil => exact absurd whole (by simp)
  | snoc run step =>
    obtain ⟨rfl, same⟩ := List.append_inj' whole rfl
    cases same
    exact ⟨_, run, step⟩

theorem Run.split (run : Run s (before ++ after) s') : ∃ middle, Run s before middle ∧ Run middle after s' := by
  induction after using List.reverseRecOn generalizing s' with
  | nil =>
    rw [List.append_nil] at run
    exact ⟨s', run, .nil s'⟩
  | append_singleton rest last ih =>
    rw [← List.append_assoc] at run
    obtain ⟨t, run, step⟩ := run.unsnoc
    obtain ⟨middle, first, second⟩ := ih run
    exact ⟨middle, first, second.snoc step⟩

/-- What a client computes it has begun to compute, and the table holds a key at most once. -/
structure Accounted (events : List (CacheEvent ι κ α ε)) (s : Shared ι κ α ε) : Prop where
  begun : ∀ i key ticket, s.phase i = .computing key ticket →
    .owns i key ticket ∈ events ∧ ticket < s.cache.issued
  distinct : (s.cache.inflight.map Prod.fst).Nodup

theorem Step.computing {i : ι} {ticket : Nat} (step : Step s event s')
    (computing : s'.phase i = .computing key ticket) :
    s.phase i = .computing key ticket ∨
      (event = .owns i key ticket ∧ ∃ cache, s.cache.claim key = (cache, .own ticket)) := by
  have same : ∀ {j : ι} {phase : Phase κ α ε}, phase ≠ .computing key ticket →
      Function.update s.phase j phase i = .computing key ticket → s.phase i = .computing key ticket := by
    intro j phase other holds
    by_cases here : i = j
    · subst here
      rw [Function.update_self] at holds
      exact absurd holds other
    · rwa [Function.update_of_ne here] at holds
  cases step with
  | hit | puts | gets | clears => exact .inl computing
  | joins | succeeds | fails | publishes | receives | leaves => exact .inl (same (by simp) computing)
  | @owns j key' cache ticket' idle claimed =>
    by_cases here : i = j
    · subst here
      simp only [Function.update_self, Phase.computing.injEq] at computing
      obtain ⟨rfl, rfl⟩ := computing
      exact .inr ⟨rfl, cache, claimed⟩
    · exact .inl (by simpa [here] using computing)

theorem Step.issued (step : Step s event s') : s.cache.issued ≤ s'.cache.issued := by
  cases step with
  | hit idle claimed =>
    obtain ⟨rfl, -⟩ := Cache.claim_hit claimed
    exact Nat.le_refl _
  | joins idle claimed =>
    obtain ⟨rfl, -⟩ := Cache.claim_wait claimed
    exact Nat.le_refl _
  | owns idle claimed =>
    obtain ⟨-, -, -, rfl⟩ := Cache.claim_own claimed
    exact Nat.le_succ _
  | @succeeds i key ticket computing value => exact Nat.le_of_eq (Cache.put_inflight s.cache key value).2.symm
  | puts idle key value => exact Nat.le_of_eq (Cache.put_inflight s.cache key value).2.symm
  | fails | publishes | receives | leaves | gets | clears => exact Nat.le_refl _

theorem Step.distinct (step : Step s event s') (distinct : (s.cache.inflight.map Prod.fst).Nodup) :
    (s'.cache.inflight.map Prod.fst).Nodup := by
  cases step with
  | hit idle claimed => rwa [(Cache.claim_hit claimed).1]
  | joins idle claimed => rwa [(Cache.claim_wait claimed).1]
  | owns idle claimed =>
    obtain ⟨-, isNew, -, rfl⟩ := Cache.claim_own claimed
    rw [Cache.ticket?_eq_none] at isNew
    rw [List.map_append, List.map_singleton]
    exact distinct.append (List.nodup_singleton _) (List.disjoint_singleton.mpr isNew)
  | @succeeds i key ticket computing value =>
    have kept := (Cache.put_inflight s.cache key value).1
    exact (kept ▸ distinct).sublist (List.filter_sublist.map _)
  | fails computing error => exact distinct.sublist (List.filter_sublist.map _)
  | puts idle key value => exact (Cache.put_inflight s.cache key value).1 ▸ distinct
  | publishes | receives | leaves | gets => exact distinct
  | clears => exact List.nodup_nil

theorem Step.accounted (step : Step s event s') (accounted : s.Accounted events) :
    s'.Accounted (events ++ [event]) := by
  refine ⟨fun i key ticket computing => ?_, step.distinct accounted.distinct⟩
  rcases step.computing computing with earlier | ⟨rfl, cache, claimed⟩
  · obtain ⟨member, below⟩ := accounted.begun i key ticket earlier
    exact ⟨List.mem_append_left _ member, Nat.lt_of_lt_of_le below step.issued⟩
  · refine ⟨by simp, ?_⟩
    obtain ⟨-, -, rfl, -⟩ := Cache.claim_own claimed
    cases step with
    | owns idle claimed' =>
      obtain ⟨-, -, -, rfl⟩ := Cache.claim_own claimed'
      exact Nat.lt_succ_self _

theorem Run.accounted (run : Run s events s') (start : s.Initial) : s'.Accounted events := by
  induction run with
  | nil => exact ⟨by simp [start.allIdle], by simp [start.noComputation]⟩
  | snoc run step ih => exact step.accounted ih

theorem Run.issued (run : Run s events s') : s.cache.issued ≤ s'.cache.issued := by
  induction run with
  | nil => exact Nat.le_refl _
  | snoc run step ih => exact Nat.le_trans ih step.issued

theorem Run.owns_late (run : Run s events s') {i : ι} {ticket : Nat}
    (begins : .owns i key ticket ∈ events) : s.cache.issued ≤ ticket := by
  induction run with
  | nil => cases begins
  | snoc run step ih =>
    rcases List.mem_append.mp begins with earlier | now
    · exact ih earlier
    · obtain rfl := List.mem_singleton.mp now
      cases step with
      | owns idle claimed =>
        obtain ⟨-, -, rfl, -⟩ := Cache.claim_own claimed
        exact run.issued

theorem Run.failed_begun (run : Run s events s') (start : s.Initial) {i : ι} {ticket : Nat} {error : ε}
    (fails : .fails i key ticket error ∈ events) : .owns i key ticket ∈ events := by
  induction run with
  | nil => cases fails
  | snoc run step ih =>
    rcases List.mem_append.mp fails with earlier | now
    · exact List.mem_append_left _ (ih earlier)
    · obtain rfl := List.mem_singleton.mp now
      cases step with
      | fails computing error =>
        exact List.mem_append_left _ ((run.accounted start).begun i key ticket computing).1

/-! ## Since some point -/

/-- The computations of a key whose tickets are not below `since`: at most one, and the table leads to it
unless the key has a result. -/
structure OneSince (since : Nat) (key : κ) (s : Shared ι κ α ε) : Prop where
  found : ∀ i ticket, s.phase i = .computing key ticket → since ≤ ticket →
    (∃ value, s.cache.get? key = some value) ∨ (key, ticket) ∈ s.cache.inflight
  single : ∀ i j ticket ticket', s.phase i = .computing key ticket → since ≤ ticket →
    s.phase j = .computing key ticket' → since ≤ ticket' → i = j

omit [DecidableEq ι] in
/-- While such a computation runs, nobody else is to compute the key. -/
theorem OneSince.not_own (one : s.OneSince since key) {i : ι} {ticket : Nat}
    (computing : s.phase i = .computing key ticket) (late : since ≤ ticket) {cache : Cache κ α}
    {ticket' : Nat} : s.cache.claim key ≠ (cache, .own ticket') := by
  intro claimed
  obtain ⟨noResult, noTicket, -⟩ := Cache.claim_own claimed
  rcases one.found i ticket computing late with ⟨value, found⟩ | member
  · rw [noResult] at found
    cases found
  · exact Cache.ticket?_eq_none.mp noTicket (List.mem_map.mpr ⟨_, member, rfl⟩)

/-- The step of a computation that ends keeps the others in the table, unless it is an old one that
fails. -/
theorem Step.found {i : ι} {ticket : Nat} (step : Step s event s') (one : s.OneSince since key)
    (noClear : event ≠ .clears)
    (noStale : ∀ j ticket error, event = .fails j key ticket error → since ≤ ticket)
    (computing : s'.phase i = .computing key ticket) (before : s.phase i = .computing key ticket)
    (late : since ≤ ticket) :
    (∃ value, s'.cache.get? key = some value) ∨ (key, ticket) ∈ s'.cache.inflight := by
  rcases one.found i ticket before late with ⟨value, found⟩ | member
  · exact .inl ⟨value, step.keeps noClear found⟩
  cases step with
  | hit idle claimed => exact .inr ((Cache.claim_hit claimed).1 ▸ member)
  | joins idle claimed => exact .inr ((Cache.claim_wait claimed).1 ▸ member)
  | owns idle claimed =>
    obtain ⟨-, -, -, rfl⟩ := Cache.claim_own claimed
    exact .inr (List.mem_append_left _ member)
  | @succeeds j key' ticket' computing' value =>
    by_cases same : key' = key
    · subst same
      exact .inl ⟨_, Cache.put_stored s.cache key' value⟩
    · have stays : (key, ticket) ∈ (s.cache.put key' value).1.inflight := by
        rw [(Cache.put_inflight s.cache key' value).1]
        exact member
      exact .inr (Cache.mem_release.mpr ⟨stays, Ne.symm same⟩)
  | @fails j key' ticket' computing' error =>
    by_cases same : key' = key
    · -- the one that fails is not an old one, so it is the client itself
      subst same
      obtain rfl := one.single j i ticket' ticket computing' (noStale j ticket' error rfl) before late
      simp at computing
    · exact .inr (Cache.mem_release.mpr ⟨member, Ne.symm same⟩)
  | puts idle key' value => exact .inr ((Cache.put_inflight s.cache key' value).1 ▸ member)
  | publishes | receives | leaves | gets => exact .inr member
  | clears => exact absurd rfl noClear

theorem Step.oneSince (step : Step s event s') (one : s.OneSince since key) (noClear : event ≠ .clears)
    (noStale : ∀ j ticket error, event = .fails j key ticket error → since ≤ ticket) :
    s'.OneSince since key := by
  refine ⟨fun i ticket computing late => ?_, fun i j ticket ticket' first late second late' => ?_⟩
  · rcases step.computing computing with earlier | ⟨rfl, -⟩
    · exact step.found one noClear noStale computing earlier late
    · cases step with
      | owns idle claimed =>
        obtain ⟨-, -, rfl, rfl⟩ := Cache.claim_own claimed
        exact .inr (by simp)
  · rcases step.computing first with earlier | ⟨rfl, cache, claimed⟩ <;>
      rcases step.computing second with earlier' | ⟨begins, cache', claimed'⟩
    · exact one.single i j ticket ticket' earlier late earlier' late'
    · exact absurd claimed' (one.not_own earlier late)
    · exact absurd claimed (one.not_own earlier' late')
    · cases begins
      rfl

theorem Run.oneSince (run : Run s after s') (one : s.OneSince since key) (noClear : .clears ∉ after)
    (noStale : ∀ j ticket error, .fails j key ticket error ∈ after → since ≤ ticket) :
    s'.OneSince since key := by
  induction run with
  | nil => exact one
  | snoc run step ih =>
    simp only [List.mem_append, List.mem_singleton, not_or] at noClear
    have earlier := ih noClear.1 fun j ticket error member =>
      noStale j ticket error (List.mem_append_left _ member)
    refine step.oneSince earlier (Ne.symm noClear.2) ?_
    rintro j ticket error rfl
    exact noStale j ticket error (by simp)

/-- As long as nobody clears the cache and no computation of a key that began before some point fails,
at most one computation of the key that began after the point runs at a time, and whoever asks for the
key meanwhile waits for it or gets a stored result. -/
theorem one_computation_since {s₀ : Shared ι κ α ε} (start : s₀.Initial) (run : Run s₀ (before ++ after) s)
    (noClear : .clears ∉ after) (key : κ)
    (noStale : ∀ i ticket error, .owns i key ticket ∈ before → .fails i key ticket error ∉ after) :
    (∀ i j ticket ticket', .owns i key ticket ∈ after → s.phase i = .computing key ticket →
      .owns j key ticket' ∈ after → s.phase j = .computing key ticket' → i = j) ∧
    ∀ i ticket, .owns i key ticket ∈ after → s.phase i = .computing key ticket →
      ∀ j, s.phase j = .idle → (∃ value s', Step s (.hit j key value) s') ∨
        ∃ s', Step s (.joins j key ticket) s' := by
  obtain ⟨middle, first, second⟩ := run.split
  have nothing : middle.OneSince middle.cache.issued key := by
    have old : ∀ i ticket, middle.phase i = .computing key ticket → ¬ middle.cache.issued ≤ ticket := by
      intro i ticket computing
      have below := ((first.accounted start).begun i key ticket computing).2
      omega
    exact ⟨fun i ticket computing late => absurd late (old i ticket computing),
      fun i _ ticket _ computing late => absurd late (old i ticket computing)⟩
  have one : s.OneSince middle.cache.issued key := by
    refine second.oneSince nothing noClear fun i ticket error fails => ?_
    have begun := run.failed_begun start (List.mem_append_right _ fails)
    rcases List.mem_append.mp begun with old | new
    · exact absurd fails (noStale i ticket error old)
    · exact second.owns_late new
  refine ⟨fun i j ticket ticket' begins computing begins' computing' => ?_, ?_⟩
  · exact one.single i j ticket ticket' computing (second.owns_late begins) computing' (second.owns_late begins')
  · intro i ticket begins computing j idle
    rcases claimed : s.cache.claim key with ⟨cache, value | waited | owned⟩
    · exact .inl ⟨value, _, .hit idle claimed⟩
    · obtain ⟨-, noResult, found⟩ := Cache.claim_wait claimed
      have here : (key, ticket) ∈ s.cache.inflight :=
        (one.found i ticket computing (second.owns_late begins)).resolve_left (by simp [noResult])
      have distinct := (run.accounted start).distinct
      have same := List.inj_on_of_nodup_map distinct (Cache.mem_of_ticket? found) here rfl
      obtain rfl : waited = ticket := congrArg Prod.snd same
      exact .inr ⟨_, .joins idle claimed⟩
    · exact absurd claimed (one.not_own computing (second.owns_late begins))

/-- Behind a clear the computation of a new owner is the only new one, also when the old owner ends well. -/
theorem one_computation_behind_clear :
    let s₀ : Shared (Fin 3) Nat Unit String :=
      { cache := {}, phase := fun _ => .idle, published := fun _ => none }
    ∃ s, Run s₀ ([.owns 0 5 0, .clears] ++ [.owns 1 5 1]) s ∧ ∃ s', Step s (.joins 2 5 1) s' := by
  intro s₀
  have start : s₀.Initial := ⟨rfl, fun _ => rfl, fun _ => rfl⟩
  have cleared := Run.nil s₀ |>.snoc (.owns rfl rfl : Step _ (.owns (0 : Fin 3) 5 0) _) |>.snoc (.clears _)
  have run : Run s₀ ([.owns 0 5 0, .clears] ++ [.owns 1 5 1]) _ :=
    cleared.snoc (.owns rfl rfl : Step _ (.owns (1 : Fin 3) 5 1) _)
  refine ⟨_, run, ?_⟩
  obtain ⟨-, waits⟩ := one_computation_since start run (by simp) 5 (by simp)
  refine (waits 1 1 (by simp) rfl 2 rfl).resolve_left ?_
  rintro ⟨value, s', step⟩
  cases step with
  | hit idle claimed => cases claimed

/-- An old owner that fails behind a clear takes the new owner's computation out of the table: a third
client computes the key beside the second one. -/
theorem stale_failure_starts_another :
    let s₀ : Shared (Fin 3) Nat Unit String :=
      { cache := {}, phase := fun _ => .idle, published := fun _ => none }
    ∃ s, Run s₀ [.owns 0 5 0, .clears, .owns 1 5 1, .fails 0 5 0 "boom", .owns 2 5 2] s ∧
      s.phase 1 = .computing 5 1 ∧ s.phase 2 = .computing 5 2 := by
  intro s₀
  have cleared := Run.nil s₀ |>.snoc (.owns rfl rfl : Step _ (.owns (0 : Fin 3) 5 0) _) |>.snoc (.clears _)
  have failed := cleared.snoc (.owns rfl rfl : Step _ (.owns (1 : Fin 3) 5 1) _) |>.snoc
    (.fails (i := 0) rfl "boom")
  exact ⟨_, failed.snoc (.owns rfl rfl : Step _ (.owns (2 : Fin 3) 5 2) _), rfl, rfl⟩

end Shared

end MacroExpand
