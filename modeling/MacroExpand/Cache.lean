/-!
# The result cache

Results are stored under keys, and the first stored result of a key stays.  A computation in
progress is published under its key by a ticket; whoever asks for that key meanwhile waits for the
ticket.  `gather` runs several computations at once.
-/

set_option autoImplicit false

namespace MacroExpand

/-- Stored results and computations in progress. -/
structure Cache (κ α : Type) where
  /-- Results in the order in which they were stored. -/
  entries : List (κ × α) := []
  /-- The tickets of computations in progress. -/
  inflight : List (κ × Nat) := []
  /-- The number of tickets given out so far. -/
  issued : Nat := 0
  deriving DecidableEq, Repr

instance {κ α : Type} : Inhabited (Cache κ α) := ⟨{}⟩

/-- What asking for a key leads to. -/
inductive Claim (α : Type) where
  /-- The result is stored. -/
  | hit (value : α)
  /-- Somebody else computes the result. -/
  | wait (ticket : Nat)
  /-- The caller computes the result. -/
  | own (ticket : Nat)
  deriving DecidableEq, Repr

namespace Cache

variable {κ α : Type} [DecidableEq κ]

/-- The stored result of a key. -/
def get? (cache : Cache κ α) (key : κ) : Option α :=
  (cache.entries.find? fun e => e.1 = key).map Prod.snd

def contains (cache : Cache κ α) (key : κ) : Bool := (cache.get? key).isSome

/-- The ticket of the computation in progress for a key. -/
def ticket? (cache : Cache κ α) (key : κ) : Option Nat :=
  (cache.inflight.find? fun e => e.1 = key).map Prod.snd

def put (cache : Cache κ α) (key : κ) (value : α) : Cache κ α × α :=
  match cache.get? key with
  | some stored => (cache, stored)
  | none => ({ cache with entries := cache.entries ++ [(key, value)] }, value)

def clear (cache : Cache κ α) : Cache κ α := { cache with entries := [], inflight := [] }

def release (cache : Cache κ α) (key : κ) : Cache κ α :=
  { cache with inflight := cache.inflight.filter fun e => e.1 ≠ key }

def claim (cache : Cache κ α) (key : κ) : Cache κ α × Claim α :=
  match cache.get? key, cache.ticket? key with
  | some value, _ => (cache, .hit value)
  | none, some ticket => (cache, .wait ticket)
  | none, none =>
    ({ cache with inflight := cache.inflight ++ [(key, cache.issued)],
                  issued := cache.issued + 1 }, .own cache.issued)

def settle (cache : Cache κ α) (key : κ) (value : α) : Cache κ α × α :=
  let (cache, stored) := cache.put key value
  (cache.release key, stored)

end Cache

/-! ## Computations at once -/

/-- A computation: its key, how often it lets others go first, what it stores on the side, and how
it ends. -/
structure Job (κ α ε : Type) where
  key : κ
  yields : Nat := 0
  side : Option (κ × α) := none
  outcome : Except ε α

/-- Where one of several computations stands. -/
inductive Progress (α ε : Type) where
  | finished (result : Except ε α)
  | waiting (ticket : Nat)
  | running (ticket : Nat)

/-- Several computations under way, with the outcomes of the tickets that are settled. -/
structure Gathering (κ α ε : Type) where
  cache : Cache κ α
  progress : List (Progress α ε) := []
  settled : List (Nat × Except ε α) := []
  /-- Which computations were started, by position. -/
  started : List Nat := []

namespace Gathering

variable {κ α ε : Type} [DecidableEq κ]

def conclude (g : Gathering κ α ε) (ticket : Nat) (job : Job κ α ε) :
    Gathering κ α ε × Except ε α :=
  let cache := match job.side with
    | none => g.cache
    | some (key, value) => (g.cache.put key value).1
  match job.outcome with
  | .error e => ({ g with cache := cache.release job.key, settled := (ticket, .error e) :: g.settled },
      .error e)
  | .ok value =>
    let (cache, stored) := cache.settle job.key value
    ({ g with cache, settled := (ticket, .ok stored) :: g.settled }, .ok stored)

def begin (g : Gathering κ α ε) (job : Job κ α ε) : Gathering κ α ε :=
  let (cache, claim) := g.cache.claim job.key
  let g := { g with cache }
  match claim with
  | .hit value => { g with progress := g.progress ++ [.finished (.ok value)] }
  | .wait ticket => { g with progress := g.progress ++ [.waiting ticket] }
  | .own ticket =>
    let g := { g with started := g.started ++ [g.progress.length] }
    if job.yields = 0 then
      let (g, result) := g.conclude ticket job
      { g with progress := g.progress ++ [.finished result] }
    else { g with progress := g.progress ++ [.running ticket] }

def finish (g : Gathering κ α ε) (position : Nat) (job : Job κ α ε) : Gathering κ α ε :=
  match g.progress[position]? with
  | some (.running ticket) =>
    let (g, result) := g.conclude ticket job
    { g with progress := g.progress.set position (.finished result) }
  | _ => g

def result? (g : Gathering κ α ε) : Progress α ε → Option (Except ε α)
  | .finished result => some result
  | .waiting ticket | .running ticket => (g.settled.find? fun e => e.1 = ticket).map Prod.snd

end Gathering

/-- Run computations at once: all begin in order, and those that let others go first end in the
order of how often they do.  The second part holds the results, the third which computations were
started. -/
def gather {κ α ε : Type} [DecidableEq κ] (cache : Cache κ α) (jobs : List (Job κ α ε)) :
    Cache κ α × List (Option (Except ε α)) × List Nat :=
  let g := jobs.foldl Gathering.begin ({ cache } : Gathering κ α ε)
  let late := jobs.zipIdx.mergeSort fun a b => a.1.yields ≤ b.1.yields
  let g := late.foldl (fun g (job, position) => g.finish position job) g
  (g.cache, g.progress.map g.result?, g.started)

end MacroExpand
