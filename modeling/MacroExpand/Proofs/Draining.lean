import MacroExpand.Proofs.OneLine
import MacroExpand.Value.Drain
import Mathlib.Algebra.BigOperators.Fin
import Mathlib.Tactic.IntervalCases
import Mathlib.Tactic.FinCases

/-!
# Reading bodies before a value is written

Reading looks at every object that a value reaches, once, and leaves the body of each message that it comes to at
hand (`Draining`).  Writing looks at the objects that a value is made of.  Both come to the same messages but for one
difference: of a form, reading looks at the last value of each key, and writing at all of them.
-/

set_option autoImplicit false

namespace MacroExpand

/-! ## Reading one object -/

namespace Object

variable {object object' : Object} {drained : Option Drained}

/-- Reading an object changes the body of a message at most, and leaves it at hand. -/
inductive Drains : Object → Object × Option Drained → Prop where
  | request (cls : Class) (r : Request) (bytes : List UInt8) (size : Option Nat)
      (waits : size = none ↔ r.body = .read bytes) :
      Drains (.inst cls (.request r))
        (.inst cls (.request { r with body := .read bytes }), size.map (⟨.request, ·⟩))
  | response (cls : Class) (r : Response) (bytes : List UInt8) (size : Option Nat)
      (waits : size = none ↔ r.body = .read bytes) :
      Drains (.inst cls (.response r))
        (.inst cls (.response { r with body := .read bytes }), size.map (⟨.response, ·⟩))
  | other (object : Object) (noRequest : ∀ cls r, object ≠ .inst cls (.request r))
      (noResponse : ∀ cls r, object ≠ .inst cls (.response r)) : Drains object (object, none)

end Object

theorem Body.drain_ok {consumed : SerializeError} {undecodable : String → SerializeError}
    {decode : List (List UInt8) → Except String (List UInt8)} {body body' : Body} {size : Option Nat}
    (ok : body.drain consumed undecodable decode = .ok (body', size)) :
    ∃ bytes, body' = .read bytes ∧ (size = none ↔ body = .read bytes) := by
  cases body with
  | read bytes =>
    cases ok
    exact ⟨bytes, rfl, by simp⟩
  | waiting chunks asynchronous =>
    rw [drain] at ok
    split at ok <;> cases ok
    exact ⟨_, rfl, by simp⟩
  | consumed => cases ok

theorem Object.drain_ok {object : Object} {result : Object × Option Drained} (ok : object.drain = .ok result) :
    object.Drains result := by
  unfold Object.drain at ok
  split at ok
  · rename_i cls r
    obtain ⟨⟨body, size⟩, read, ok⟩ := Sandbox.bind_ok ok
    cases ok
    obtain ⟨bytes, rfl, waits⟩ := Body.drain_ok read
    exact .request cls r bytes size waits
  · rename_i cls r
    obtain ⟨⟨body, size⟩, read, ok⟩ := Sandbox.bind_ok ok
    cases ok
    obtain ⟨bytes, rfl, waits⟩ := Body.drain_ok read
    exact .response cls r bytes size waits
  · rename_i noRequest noResponse
    cases ok
    exact .other object noRequest noResponse

theorem Object.Drains.drainable {object : Object} {result : Object × Option Drained} (drains : object.Drains result) :
    result.1.drainable = object.drainable := by
  cases drains <;> rfl

/-! ## Reading a graph -/

inductive Looks (graph : Graph) (root : Value) : Value → Prop where
  | root : Looks graph root root
  | into {i : Nat} {object : Object} {v : Value} (outer : Looks graph root (.ref i))
      (found : graph[i]? = some object) (inside : v ∈ object.drainable) : Looks graph root v

def Object.drained? (object : Object) : Option Drained :=
  match object.drain with
  | .ok (_, drained) => drained
  | .error _ => none

structure Graph.Read (graph : Graph) (seen : List Nat) (graph' : Graph) : Prop where
  size : graph'.size = graph.size
  unseen : ∀ i ∉ seen, graph'[i]? = graph[i]?
  seen : ∀ i ∈ seen, ∀ object, graph[i]? = some object →
    ∃ object' drained, object.drain = .ok (object', drained) ∧ graph'[i]? = some object'

theorem Graph.Read.of_mem {graph graph' : Graph} {seen order : List Nat} (read : graph.Read seen graph')
    (same : ∀ i, i ∈ order ↔ i ∈ seen) : graph.Read order graph' :=
  ⟨read.size, fun i new => read.unseen i (mt (same i).mpr new), fun i old => read.seen i ((same i).mp old)⟩

def Covered (seen : List Nat) (stack : List Value) (i : Nat) : Prop := i ∈ seen ∨ .ref i ∈ stack

theorem Covered.next {seen : List Nat} {stack : List Value} {i j : Nat}
    (covered : Covered seen (.ref i :: stack) j) (new : List Value) : Covered (i :: seen) (new ++ stack) j := by
  rcases covered with old | member
  · exact .inl (List.mem_cons_of_mem i old)
  · rcases List.mem_cons.mp member with same | inside
    · exact .inl (Value.ref.inj same ▸ List.mem_cons_self)
    · exact .inr (List.mem_append_right new inside)

/-- How far reading has come: which objects have been looked at, the last one first, what of it is on record, and
what is still on the stack. -/
structure Draining (graph : Graph) (root : Value) (seen : List Nat) (log : List Drained) (graph' : Graph)
    (stack : List Value) : Prop where
  read : graph.Read seen graph'
  distinct : seen.Nodup
  log : log = seen.filterMap fun i => graph[i]?.bind Object.drained?
  looked : ∀ i ∈ seen, Looks graph root (.ref i)
  waiting : ∀ v ∈ stack, Looks graph root v
  closed : ∀ i ∈ seen, ∀ object, graph[i]? = some object → ∀ j, .ref j ∈ object.drainable → Covered seen stack j
  root : ∀ j, root = .ref j → Covered seen stack j

namespace Draining

variable {graph graph' : Graph} {root : Value} {seen : List Nat} {log : List Drained} {v : Value}
  {stack : List Value} {i : Nat}

theorem start (graph : Graph) (root : Value) : Draining graph root [] [] graph [root] where
  read := ⟨rfl, fun _ _ => rfl, nofun⟩
  distinct := .nil
  log := rfl
  looked := nofun
  waiting := List.forall_mem_singleton.mpr .root
  closed := nofun
  root := fun _ isRoot => .inr (isRoot ▸ List.mem_singleton_self _)

theorem skip (draining : Draining graph root seen log graph' (v :: stack)) (old : ∀ i, v = .ref i → i ∈ seen) :
    Draining graph root seen log graph' stack := by
  have later : ∀ j, Covered seen (v :: stack) j → Covered seen stack j := by
    rintro j (known | member)
    · exact .inl known
    · exact (List.mem_cons.mp member).elim (fun same => .inl (old j same.symm)) .inr
  exact { draining with
    waiting := fun w member => draining.waiting w (List.mem_cons_of_mem v member)
    closed := fun i member object found j inside => later j (draining.closed i member object found j inside)
    root := fun j isRoot => later j (draining.root j isRoot) }

/-- What has not been looked at is read, and what it holds is put on the stack. -/
theorem enter {object object' : Object} {drained : Option Drained}
    (draining : Draining graph root seen log graph' (.ref i :: stack)) (new : i ∉ seen)
    (found : graph'[i]? = some object) (read : object.drain = .ok (object', drained)) :
    Draining graph root (i :: seen) (drained.toList ++ log) (graph'.setIfInBounds i object')
      (object'.drainable.reverse ++ stack) := by
  have before : graph[i]? = some object := (draining.read.unseen i new).symm.trans found
  have inside : i < graph'.size := (Array.getElem?_eq_some_iff.mp found).1
  have holds : object'.drainable = object.drainable := (Object.drain_ok read).drainable
  have here : Looks graph root (.ref i) := draining.waiting _ List.mem_cons_self
  refine ⟨⟨by rw [Array.size_setIfInBounds, draining.read.size], ?_, ?_⟩, List.nodup_cons.mpr ⟨new, draining.distinct⟩,
    ?_, List.forall_mem_cons.mpr ⟨here, draining.looked⟩, ?_, ?_, fun j isRoot => (draining.root j isRoot).next _⟩
  · intro j other
    obtain ⟨apart, unseen⟩ := not_or.mp fun h => other (List.mem_cons.mpr h)
    rw [Array.getElem?_setIfInBounds_ne (Ne.symm apart), draining.read.unseen j unseen]
  · refine List.forall_mem_cons.mpr ⟨fun known isKnown => ?_, fun j old known isKnown => ?_⟩
    · obtain rfl := Option.some.inj (before.symm.trans isKnown)
      exact ⟨object', drained, read, Array.getElem?_setIfInBounds_self_of_lt inside⟩
    · have apart : i ≠ j := fun same => new (same ▸ old)
      rw [Array.getElem?_setIfInBounds_ne apart]
      exact draining.read.seen j old known isKnown
  · have isDrained : object.drained? = drained := by rw [Object.drained?, read]
    rw [List.filterMap_cons, before, Option.bind_some, isDrained, draining.log]
    cases drained <;> rfl
  · intro w member
    rcases List.mem_append.mp member with held | rest
    · rw [List.mem_reverse, holds] at held
      exact .into here before held
    · exact draining.waiting w (List.mem_cons_of_mem _ rest)
  · refine List.forall_mem_cons.mpr ⟨fun known isKnown j held => ?_, fun k old known isKnown j held =>
      (draining.closed k old known isKnown j held).next _⟩
    obtain rfl := Option.some.inj (before.symm.trans isKnown)
    rw [← holds] at held
    exact .inr (List.mem_append_left _ (List.mem_reverse.mpr held))

theorem miss (draining : Draining graph root seen log graph' (.ref i :: stack)) (new : i ∉ seen)
    (absent : graph'[i]? = none) : Draining graph root (i :: seen) log graph' stack := by
  have before : graph[i]? = none := (draining.read.unseen i new).symm.trans absent
  have none : ∀ object, graph[i]? ≠ some object := fun object found => by
    rw [before] at found
    cases found
  refine ⟨⟨draining.read.size, fun j other => draining.read.unseen j fun old => other (List.mem_cons_of_mem i old), ?_⟩,
    List.nodup_cons.mpr ⟨new, draining.distinct⟩, ?_,
    List.forall_mem_cons.mpr ⟨draining.waiting _ List.mem_cons_self, draining.looked⟩,
    fun w member => draining.waiting w (List.mem_cons_of_mem _ member), ?_,
    fun j isRoot => (draining.root j isRoot).next []⟩
  · exact List.forall_mem_cons.mpr ⟨fun object found => absurd found (none object), draining.read.seen⟩
  · rw [List.filterMap_cons, before, draining.log]
    rfl
  · exact List.forall_mem_cons.mpr ⟨fun object found => absurd found (none object), fun k old object found j held =>
      (draining.closed k old object found j held).next []⟩

theorem complete (draining : Draining graph root seen log graph' []) : i ∈ seen ↔ Looks graph root (.ref i) := by
  refine ⟨draining.looked i, fun looks => ?_⟩
  generalize isValue : Value.ref i = v at looks
  induction looks generalizing i with
  | root => exact (draining.root i isValue.symm).resolve_right List.not_mem_nil
  | into outer found inside ih =>
    exact (draining.closed _ (ih rfl) _ found i (isValue ▸ inside)).resolve_right List.not_mem_nil

end Draining

/-! ## Enough steps -/

def Graph.steps (graph : Graph) (i : Nat) : Nat :=
  (graph[i]?.map fun object => object.drainable.length + 1).getD 0

def Graph.stepsLeft (graph : Graph) (seen : List Nat) : Nat :=
  ∑ i ∈ Finset.range graph.size \ seen.toFinset, graph.steps i

namespace Graph

variable {graph : Graph} {seen : List Nat} {i : Nat}

theorem stepsLeft_start (graph : Graph) : graph.stepsLeft [] + 2 = drainFuel graph := by
  have each : ∀ k : Fin (graph.toList.map fun object => object.drainable.length + 1).length,
      graph.steps k = (graph.toList.map fun object => object.drainable.length + 1)[k.1] := by
    rintro ⟨k, small⟩
    have inside : k < graph.size := by simpa using small
    simp [steps, inside]
  have length : graph.size = (graph.toList.map fun object => object.drainable.length + 1).length := by simp
  rw [stepsLeft, drainFuel, List.toFinset_nil, Finset.sdiff_empty, length, Finset.sum_range,
    Finset.sum_congr rfl fun k _ => each k, Fin.sum_univ_getElem, Nat.add_comm]

theorem stepsLeft_look (inside : i < graph.size) (new : i ∉ seen) :
    graph.steps i + graph.stepsLeft (i :: seen) = graph.stepsLeft seen := by
  rw [stepsLeft, stepsLeft, List.toFinset_cons, Finset.sdiff_insert]
  refine Finset.add_sum_erase _ _ (Finset.mem_sdiff.mpr ⟨Finset.mem_range.mpr inside, ?_⟩)
  rwa [List.mem_toFinset]

theorem stepsLeft_miss (outside : graph.size ≤ i) : graph.stepsLeft (i :: seen) = graph.stepsLeft seen := by
  rw [stepsLeft, stepsLeft, List.toFinset_cons, Finset.sdiff_insert, Finset.erase_eq_of_notMem]
  intro member
  exact absurd (Finset.mem_range.mp (Finset.mem_sdiff.mp member).1) (Nat.not_lt.mpr outside)

end Graph

/-! ## Reading all -/

/-- What comes of reading: each object that reading looks at has been looked at once, in some order, and what was read
is on record; or one of them could not be read. -/
def Drains (graph : Graph) (root : Value) : Except SerializeError (Graph × List Drained) → Prop
  | .ok (graph', log) => ∃ order : List Nat, order.Nodup ∧ (∀ i, i ∈ order ↔ Looks graph root (.ref i)) ∧
      graph.Read order graph' ∧ log = order.filterMap fun i => graph[i]?.bind Object.drained?
  | .error e => ∃ i object, Looks graph root (.ref i) ∧ graph[i]? = some object ∧ object.drain = .error e

theorem Draining.finished {graph graph' : Graph} {root : Value} {seen : List Nat} {log : List Drained} {fuel : Nat}
    (draining : Draining graph root seen log graph' []) : Drains graph root (drainStack fuel seen log graph' []) := by
  have ends : drainStack fuel seen log graph' [] = .ok (graph', log.reverse) := by cases fuel <;> rfl
  rw [ends]
  refine ⟨seen.reverse, List.nodup_reverse.mpr draining.distinct, fun i => List.mem_reverse.trans draining.complete, ?_, ?_⟩
  · exact draining.read.of_mem fun i => List.mem_reverse
  · rw [draining.log, List.filterMap_reverse]

theorem Draining.run {graph graph' : Graph} {root : Value} {seen : List Nat} {log : List Drained}
    {stack : List Value} {fuel : Nat} (draining : Draining graph root seen log graph' stack)
    (enough : stack.length + graph.stepsLeft seen ≤ fuel) :
    Drains graph root (drainStack fuel seen log graph' stack) := by
  induction fuel generalizing seen log graph' stack with
  | zero =>
    obtain rfl : stack = [] := List.length_eq_zero_iff.mp (by omega)
    exact draining.finished
  | succ fuel ih =>
    cases stack with
    | nil => exact draining.finished
    | cons v stack =>
      rw [List.length_cons] at enough
      cases v with
      | scalar s => exact ih (draining.skip nofun) (by omega)
      | ref i =>
        rw [drainStack]
        by_cases old : i ∈ seen
        · rw [if_pos (List.contains_iff_mem.mpr old)]
          exact ih (draining.skip fun j same => Value.ref.inj same ▸ old) (by omega)
        · rw [if_neg (mt List.contains_iff_mem.mp old)]
          have size := draining.read.size
          cases found : graph'[i]? with
          | none =>
            have outside : graph.size ≤ i := size ▸ Array.getElem?_eq_none_iff.mp found
            exact ih (draining.miss old found) (by rw [Graph.stepsLeft_miss outside]; omega)
          | some object =>
            have before : graph[i]? = some object := (draining.read.unseen i old).symm.trans found
            have inside : i < graph.size := (Array.getElem?_eq_some_iff.mp before).1
            dsimp only
            cases read : object.drain with
            | error e => exact ⟨i, object, draining.waiting _ List.mem_cons_self, before, read⟩
            | ok result =>
              obtain ⟨object', drained⟩ := result
              have holds : object'.drainable = object.drainable := (Object.drain_ok read).drainable
              have steps : graph.steps i = object.drainable.length + 1 := by rw [Graph.steps, before]; rfl
              have left := Graph.stepsLeft_look inside old
              refine ih (draining.enter old found read) ?_
              rw [List.length_append, List.length_reverse, holds]
              omega

/-- Reading comes to an end, looks at each object once, and reads all that it looks at unless one cannot be read. -/
theorem drains (graph : Graph) (root : Value) : Drains graph root (drain graph root) := by
  refine (Draining.start graph root).run ?_
  have start := graph.stepsLeft_start
  rw [List.length_singleton]
  omega

/-! ## What writing looks at -/

def Object.parts : Object → List Value
  | .inst _ state => state.handed
  | object => object.elements

inductive Uses (graph : Graph) (root : Value) : Value → Prop where
  | root : Uses graph root root
  | part {i : Nat} {object : Object} {v : Value} (outer : Uses graph root (.ref i))
      (found : graph[i]? = some object) (inside : v ∈ object.parts) : Uses graph root v

def State.AtHand : State → Prop
  | .request r => ∃ bytes, r.body = .read bytes
  | .response r => ∃ bytes, r.body = .read bytes
  | _ => True

/-- The bodies of all messages that a value is written with are at hand. -/
def BodiesAtHand (graph : Graph) (root : Value) : Prop :=
  ∀ i cls state, Uses graph root (.ref i) → graph[i]? = some (.inst cls state) → state.AtHand

/-- Reading comes to all that writing does: no object brings a recipe of its own, the status of a response is a number
or a member of an enumeration, and an object that stands in a form under a key that comes again is looked at
elsewhere too. -/
structure Drainable (graph : Graph) (root : Value) : Prop where
  known : ∀ i cls recipe, Uses graph root (.ref i) → graph[i]? ≠ some (.inst cls (.rebuilt recipe))
  status : ∀ i cls r j, Uses graph root (.ref i) → graph[i]? = some (.inst cls (.response r)) → r.status = .ref j →
    ∃ enumeration name reachability, graph[j]? = some (.inst enumeration (.enumMember name reachability))
  hidden : ∀ i cls pairs, Uses graph root (.ref i) → graph[i]? = some (.inst cls (.formData pairs)) →
    ∀ e ∈ pairs, e ∉ lastEntries pairs → ∀ j, e.2 = .ref j → Looks graph root (.ref j)

theorem exists_last {pairs : List (Value × Value)} {e : Value × Value} (member : e ∈ pairs) :
    ∃ v, (e.1, v) ∈ lastEntries pairs := by
  have known : e.1 ∈ (pairs.map Prod.fst).eraseDups := by
    rw [List.mem_eraseDups]
    exact List.mem_map_of_mem member
  cases found : pairs.reverse.find? fun e' => e'.1 = e.1 with
  | none =>
    have differs := List.find?_eq_none.mp found e (List.mem_reverse.mpr member)
    exact absurd (decide_eq_true rfl) differs
  | some last =>
    have isKey : last.1 = e.1 := by simpa using List.find?_some found
    refine ⟨last.2, List.mem_filterMap.mpr ⟨e.1, known, ?_⟩⟩
    rw [found, ← isKey]

namespace Drainable

variable {graph : Graph} {root : Value}

/-- Reading looks at whatever a value is written with, but for members of enumerations. -/
theorem looks (drainable : Drainable graph root) {v : Value} (uses : Uses graph root v) : ∀ j, v = .ref j →
    Looks graph root (.ref j) ∨
      ∃ cls name reachability, graph[j]? = some (.inst cls (.enumMember name reachability)) := by
  induction uses with
  | root => exact fun j isRoot => .inl (isRoot ▸ .root)
  | @part i object v outer found inside ih =>
    rintro j rfl
    rcases ih i rfl with here | ⟨cls, name, reachability, isMember⟩
    · have held : .ref j ∈ object.drainable → Looks graph root (.ref j) := .into here found
      cases object with
      | inst cls state =>
        cases state with
        | ordered entries => exact .inl (held inside)
        | formData pairs =>
          obtain ⟨e, isEntry, part⟩ := List.mem_flatMap.mp inside
          have kept : ∀ e' ∈ lastEntries pairs, .ref j ∈ [e'.1, e'.2] → Looks graph root (.ref j) :=
            fun e' isLast part => held (List.mem_flatMap.mpr ⟨e', isLast, part⟩)
          rcases List.mem_cons.mp part with isKey | isValue
          · obtain ⟨last, isLast⟩ := exists_last isEntry
            exact .inl (kept _ isLast (isKey ▸ List.mem_cons_self))
          · by_cases isLast : e ∈ lastEntries pairs
            · exact .inl (kept e isLast part)
            · exact .inl (drainable.hidden i cls pairs outer found e isEntry isLast j (List.mem_singleton.mp isValue).symm)
        | response r =>
          rcases List.mem_cons.mp inside with isStatus | isRequest
          · exact .inr (drainable.status i cls r j outer found isStatus.symm)
          · exact .inl (held isRequest)
        | rebuilt recipe => exact absurd found (drainable.known i cls recipe outer)
        | _ => cases inside
      | _ => exact .inl (held inside)
    · rw [isMember] at found
      cases found
      cases inside

end Drainable

theorem Object.Drains.parts {object : Object} {result : Object × Option Drained} (drains : object.Drains result) :
    result.1.parts = object.parts := by
  cases drains <;> rfl

theorem Object.Drains.atHand {object : Object} {result : Object × Option Drained} (drains : object.Drains result)
    {cls : Class} {state : State} (isInst : result.1 = .inst cls state) : state.AtHand := by
  cases drains with
  | request => cases isInst; exact ⟨_, rfl⟩
  | response => cases isInst; exact ⟨_, rfl⟩
  | other object noRequest noResponse =>
    cases state with
    | request r => exact absurd isInst (noRequest cls r)
    | response r => exact absurd isInst (noResponse cls r)
    | _ => trivial

namespace Graph.Read

variable {graph graph' : Graph} {order : List Nat} {i : Nat} {object' : Object}

theorem cases (read : graph.Read order graph') (found : graph'[i]? = some object') :
    (i ∉ order ∧ graph[i]? = some object') ∨
      ∃ object drained, i ∈ order ∧ graph[i]? = some object ∧ object.Drains (object', drained) := by
  by_cases seen : i ∈ order
  · have inside : i < graph.size := read.size ▸ (Array.getElem?_eq_some_iff.mp found).1
    have before := Array.getElem?_eq_getElem inside
    obtain ⟨object, drained, isRead, after⟩ := read.seen i seen _ before
    obtain rfl := Option.some.inj (after.symm.trans found)
    exact .inr ⟨_, drained, seen, before, Object.drain_ok isRead⟩
  · exact .inl ⟨seen, read.unseen i seen ▸ found⟩

theorem parts (read : graph.Read order graph') (found : graph'[i]? = some object') :
    ∃ object, graph[i]? = some object ∧ object'.parts = object.parts := by
  rcases read.cases found with ⟨-, before⟩ | ⟨object, drained, -, before, drains⟩
  · exact ⟨object', before, rfl⟩
  · exact ⟨object, before, drains.parts⟩

theorem uses (read : graph.Read order graph') {root v : Value} (uses : Uses graph' root v) : Uses graph root v := by
  induction uses with
  | root => exact .root
  | part outer found inside ih =>
    obtain ⟨object, before, same⟩ := read.parts found
    exact .part ih before (same ▸ inside)

end Graph.Read

theorem Drainable.atHand {graph graph' : Graph} {root : Value} {log : List Drained} (drainable : Drainable graph root)
    (drained : drain graph root = .ok (graph', log)) : BodiesAtHand graph' root := by
  have outcome := drains graph root
  rw [drained] at outcome
  obtain ⟨order, -, all, read, -⟩ := outcome
  intro i cls state uses found
  rcases read.cases found with ⟨new, before⟩ | ⟨_, _, -, -, isRead⟩
  · rcases drainable.looks (read.uses uses) i rfl with here | ⟨cls', name, reachability, isMember⟩
    · exact absurd ((all i).mpr here) new
    · rw [before] at isMember
      cases isMember
      trivial
  · exact isRead.atHand rfl

/-! ## Writing what was read -/

/-- The failures to write a message because its body is not at hand. -/
def SerializeError.IsUnread : SerializeError → Prop
  | .requestNotRead | .responseNotRead => True
  | _ => False

theorem Reducer.standard_error {cls : Class} {state : State} {e : SerializeError} (answer : standard cls state = .error e) :
    ¬ state.AtHand := by
  cases state with
  | request r =>
    rintro ⟨bytes, isRead⟩
    rw [standard, isRead] at answer
    cases answer
  | response r =>
    rintro ⟨bytes, isRead⟩
    rw [standard, isRead] at answer
    cases answer
  | enumMember =>
    rw [standard] at answer
    split at answer <;> cases answer
  | _ => cases answer

theorem refusal_isUnread (cls : Class) (state : State) : ¬ (refusal cls state).IsUnread := by
  cases state <;> exact id

def Met (graph : Graph) (root v : Value) : Prop := ∀ j, v = .ref j → j < graph.size → Uses graph root (.ref j)

/-- What of an object keeps a scan among values that are met and bodies at hand. -/
structure Object.Safe (graph : Graph) (root : Value) (object : Object) : Prop where
  atHand : ∀ cls state, object = .inst cls state → state.AtHand
  parts : ∀ v ∈ object.parts, Met graph root v

/-- How far a scan has come: the graph has its objects with new ones behind them, and all parts of these are met. -/
structure Writing (graph : Graph) (root : Value) (s : Survey) : Prop where
  size : graph.size ≤ s.graph.size
  same : ∀ i < graph.size, s.graph[i]? = graph[i]?
  behind : s.graph.Behind graph.size (Object.Safe graph root)
  recipes : ∀ e ∈ s.recipes, ∀ v ∈ e.2.values, Met graph root v

namespace Writing

variable {graph : Graph} {root : Value} {s : Survey} {i : Nat}

theorem builds (graph : Graph) (root : Value) :
    Fresh.Builds graph.size (Object.Safe graph root) (Met graph root) where
  scalar := nofun
  new := by
    rintro i behind j same small
    cases same
    omega
  container := by
    intro object noInst each
    refine ⟨fun cls state isInst => absurd isInst (noInst cls state), fun v member => ?_⟩
    cases object with
    | inst cls state => exact absurd rfl (noInst cls state)
    | _ => exact each v member

theorem safe (writing : Writing graph root s) (atHand : BodiesAtHand graph root) (met : Met graph root (.ref i)) :
    (s.object i).Safe graph root := by
  cases found : s.graph[i]? with
  | none =>
    have isEmpty : s.object i = .tuple [] := by
      rw [Survey.object, Array.getD_eq_getD_getElem?, found]
      rfl
    rw [isEmpty]
    exact ⟨(fun _ _ isInst => by cases isInst), (fun _ member => by cases member)⟩
  | some object =>
    rw [Survey.object_eq found]
    by_cases small : i < graph.size
    · have uses := met i rfl small
      rw [writing.same i small] at found
      refine ⟨fun cls state isInst => atHand i cls state uses (isInst ▸ found), fun v member j isRef _ => ?_⟩
      exact .part uses found (isRef ▸ member)
    · exact writing.behind i object (Nat.not_lt.mp small) found

theorem instances {cls : Class} {state : State}
    (parts : (∃ u, (cls, state) = (Class.url, State.url u)) ∨ ∃ b, (cls, state) = (Class.bytearray, State.bytearray b)) :
    Object.Safe graph root (.inst cls state) := by
  rcases parts with ⟨u, same⟩ | ⟨b, same⟩
  all_goals
    cases same
    refine ⟨fun cls state isInst => ?_, nofun⟩
    cases isInst
    trivial

theorem withReduction (writing : Writing graph root s) (safe : (s.object i).Safe graph root) {cls : Class}
    {state : State} {fresh : FreshRecipe} (isInst : s.object i = .inst cls state)
    (answer : Reducer.standard cls state = .ok (some fresh)) :
    Writing graph root (Tracks.withReduction s i (fresh.alloc s.graph)) ∧
      ∀ v ∈ (fresh.alloc s.graph).2.values, Met graph root v := by
  have parts := Reducer.partsOf_standard answer
  have given : ∀ v ∈ fresh.given, Met graph root v := by
    intro v member
    rcases parts.given v member with ⟨x, rfl⟩ | handed
    · exact nofun
    · rw [isInst] at safe
      exact safe.parts v handed
  obtain ⟨behind, each, size⟩ := fresh.alloc_behind (builds graph root) writing.size writing.behind given
    fun e member => instances (parts.instances e member)
  refine ⟨⟨size, fun k small => ?_, behind, List.forall_mem_cons.mpr ⟨each, writing.recipes⟩⟩, each⟩
  have inside : k < s.graph.size := Nat.lt_of_lt_of_le small writing.size
  rw [← writing.same k small, Array.getElem?_eq_getElem inside]
  exact fresh.extends_alloc s.graph k _ (Array.getElem?_eq_getElem inside)

/-- A scan meets no message whose body is not at hand. -/
theorem kept (atHand : BodiesAtHand graph root) :
    Survey.Kept Registry.standard (Writing graph root) (Met graph root) (fun e => ¬ e.IsUnread) where
  noted := fun _ _ _ writing => ⟨writing.size, writing.same, writing.behind, writing.recipes⟩
  cyclic := fun _ => id
  tooDeep := id
  entered := by
    intro s i writing met
    have safe := writing.safe atHand met
    have enters := s.enters Registry.standard i
    generalize s.children Registry.standard i = result at enters
    cases enters with
    | plain noInst =>
      refine ⟨writing, fun v member => safe.parts v ?_⟩
      generalize s.object i = object at noInst member
      cases object with
      | inst cls state => exact absurd rfl (noInst cls state)
      | _ => exact member
    | again isInst known =>
      obtain ⟨e, isRecipe, rfl⟩ := Option.map_eq_some_iff.mp known
      exact ⟨writing, writing.recipes e (List.mem_of_find?_eq_some isRecipe)⟩
    | fails isInst answer =>
      rcases Registry.reduce_standard_cases _ _ with same | none
      · exact absurd (safe.atHand _ _ isInst) (Reducer.standard_error (same ▸ answer))
      · rw [none] at answer
        cases answer
    | refuses isInst answer => exact refusal_isUnread _ _
    | reduces isInst answer =>
      rcases Registry.reduce_standard_cases _ _ with same | none
      · exact writing.withReduction safe isInst (same ▸ answer)
      · rw [none] at answer
        cases answer

theorem start (graph : Graph) (root : Value) : Writing graph root { graph } :=
  ⟨Nat.le_refl _, fun _ _ => rfl, .start graph _, nofun⟩

end Writing

theorem BodiesAtHand.settles_uneval {graph : Graph} {root : Value} (atHand : BodiesAtHand graph root) (limit : Nat) :
    Settles (fun _ => True) (fun e => ¬ e.IsUnread) (uneval Registry.standard limit graph root) := by
  have scanned : Settles (Writing graph root) (fun e => ¬ e.IsUnread)
      (Survey.scan Registry.standard limit [] { graph } root) :=
    (Writing.kept atHand).scan limit [] (.start graph root) fun j isRoot _ => isRoot ▸ .root
  unfold uneval
  cases result : Survey.scan Registry.standard limit [] { graph } root with
  | error e =>
    rw [result] at scanned
    exact scanned
  | ok s =>
    -- No matter which characters the names in it have.
    have settles : Settles (Text.Of fun _ => True) (fun e => ¬ e.IsUnread) (s.expression limit root) :=
      Survey.settles_expression (fun _ _ => trivial)
        (fun _ _ _ => ⟨fun _ _ => trivial, fun _ _ _ _ => trivial⟩) refusal_isUnread id limit root
    exact settles.mono (fun _ _ => trivial) fun _ => id

/-- Reading looks at each object that a value reaches once and comes to an end; when it succeeds, the body of every
message that the value is written with is at hand, so writing does not fail for a body. -/
theorem drained_bodies_at_hand (graph : Graph) (root : Value) (drainable : Drainable graph root) :
    Drains graph root (drain graph root) ∧
      ∀ graph' log, drain graph root = .ok (graph', log) → BodiesAtHand graph' root ∧
        ∀ limit e, uneval Registry.standard limit graph' root = .error e → ¬ e.IsUnread := by
  refine ⟨drains graph root, fun graph' log drained => ?_⟩
  have atHand := drainable.atHand drained
  refine ⟨atHand, fun limit e failed => ?_⟩
  have settles := atHand.settles_uneval limit
  rw [failed] at settles
  exact settles

/-- A list that holds itself and a form.  In the form a response that was not read stands under two keys, one of
which comes again; the response belongs to a request that was not read. -/
def postedForm : Graph := #[
  .list [.ref 1, .ref 0],
  .inst Class.formData (.formData [(.scalar (.str ['a']), .ref 2), (.scalar (.str ['b']), .ref 2),
    (.scalar (.str ['a']), .scalar (.int 1))]),
  .inst Class.response (.response ⟨.scalar (.int 200), ⟨[]⟩, .waiting [[104], [105]] false, [], some (.ref 3)⟩),
  .inst Class.request (.request ⟨chars "GET", ⟨chars "http", [], ['h'], none, ['/'], none, none⟩, ⟨[]⟩,
    .waiting [[120]] true⟩)]

theorem drainable_postedForm : Drainable postedForm (.ref 0) := by
  have form : Looks postedForm (.ref 0) (.ref 1) := .into .root rfl (by decide : Value.ref 1 ∈ [Value.ref 1, .ref 0])
  have response : Looks postedForm (.ref 0) (.ref 2) := .into form rfl (by decide : Value.ref 2 ∈ Object.drainable postedForm[1])
  have numbers : ∀ i object, postedForm[i]? = some object → i < 4 := fun i _ found =>
    (Array.getElem?_eq_some_iff.mp found).1
  refine ⟨fun i cls recipe _ found => ?_, fun i cls r j _ found isRef => ?_,
    fun i cls pairs _ found e member _ j isRef => ?_⟩
  all_goals
    have small := numbers i _ found
    interval_cases i <;> cases found
  · cases isRef
  · fin_cases member <;> cases isRef
    · exact response
    · exact response

/-- Reading the form reads the response and its request, each once, and then all bodies are at hand. -/
theorem postedForm_read : ∃ graph' log, drain postedForm (.ref 0) = .ok (graph', log) ∧ log.length = 2 ∧
    BodiesAtHand graph' (.ref 0) := by
  have reads : ∃ result, drain postedForm (.ref 0) = .ok result ∧ result.2.length = 2 := ⟨_, rfl, rfl⟩
  obtain ⟨⟨graph', log⟩, drained, count⟩ := reads
  exact ⟨graph', log, drained, count,
    ((drained_bodies_at_hand postedForm (.ref 0) drainable_postedForm).2 graph' log drained).1⟩

/-- A form in which a response that was not read stands under a key that comes again, and nowhere else. -/
def hiddenResponse : Graph := #[
  .inst Class.formData (.formData [(.scalar (.str ['a']), .ref 1), (.scalar (.str ['a']), .scalar (.str ['x']))]),
  .inst Class.response (.response ⟨.scalar (.int 200), ⟨[]⟩, .waiting [[104], [105]] false, [], none⟩)]

/-- Reading passes over what a later value of the same key hides, and writing then finds it unread. -/
theorem hiddenResponse_unread : drain hiddenResponse (.ref 0) = .ok (hiddenResponse, []) ∧
    uneval Registry.standard nestingLimit hiddenResponse (.ref 0) = .error .responseNotRead := by
  exact ⟨rfl, rfl⟩

end MacroExpand
