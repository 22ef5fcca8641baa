import MacroExpand.Proofs.Copies

/-!
# Keys in a memory

Copies of two keys are compared without changing the memory.  When the copies were made one after the
other and count as alike, the keys themselves are equal in the graph; so the keys of a dictionary and
the elements of a set, which differ pairwise, are copied one by one and keep their order.
-/

set_option autoImplicit false

namespace MacroExpand

/-! ## Equality in a graph -/

namespace Graph

variable {graph : Graph} {depth : Nat}

def Unlike (graph : Graph) (a b : Value) : Prop := ∀ depth, graph.sameKey depth a b = false

theorem sameKey_scalar {s t : Scalar} (same : s = t ∨ s.same t = true) :
    graph.sameKey (depth + 1) (.scalar s) (.scalar t) = true := by
  rw [sameKey]
  split
  · rfl
  · rename_i different
    rcases same with equal | same
    · exact absurd (congrArg Value.scalar equal) different
    · exact same

theorem sameKey_tuple {i j : Nat} {xs ys : List Value} (first : graph[i]? = some (.tuple xs))
    (second : graph[j]? = some (.tuple ys))
    (same : List.Forall₂ (fun x y => graph.sameKey depth x y = true) xs ys) :
    graph.sameKey (depth + 1) (.ref i) (.ref j) = true := by
  rw [sameKey]
  split
  · rfl
  · simp only [first, second, Bool.and_eq_true, beq_iff_eq, List.all_eq_true]
    refine ⟨same.length_eq, ?_⟩
    rintro ⟨x, y⟩ inside
    exact (List.forall₂_iff_zip.mp same).2 inside

theorem sameKey_frozenset {i j : Nat} {xs ys : List Value}
    (first : graph[i]? = some (.frozenset xs)) (second : graph[j]? = some (.frozenset ys))
    (size : xs.length = ys.length)
    (held : ∀ x ∈ xs, ∃ y ∈ ys, graph.sameKey depth x y = true) :
    graph.sameKey (depth + 1) (.ref i) (.ref j) = true := by
  rw [sameKey]
  split
  · rfl
  · simp only [first, second, Bool.and_eq_true, beq_iff_eq, List.all_eq_true, List.any_eq_true]
    exact ⟨size, held⟩

end Graph

namespace Sandbox

variable {m m' : Machine}

/-! ## Tests on lists -/

section Tests

variable {P Q T : Value → Value → Prop} {vs xs us ys : List Value}

theorem forall₂_common (first : List.Forall₂ P vs xs) (second : List.Forall₂ Q us xs)
    (implies : ∀ v u x, P v x → Q u x → T v u) : List.Forall₂ T vs us := by
  induction first generalizing us with
  | nil =>
    cases second
    exact .nil
  | cons related _ ih =>
    cases second with
    | cons related' rest => exact .cons (implies _ _ _ related related') (ih rest)

theorem forall₂_exists {α β : Type} {R : α → β → Prop} {as : List α} {bs : List β}
    (related : List.Forall₂ R as bs) {a : α} (inside : a ∈ as) : ∃ b ∈ bs, R a b := by
  induction related with
  | nil => cases inside
  | cons front _ ih =>
    rcases List.mem_cons.mp inside with rfl | behind
    · exact ⟨_, List.mem_cons_self .., front⟩
    · obtain ⟨x, inside', found⟩ := ih behind
      exact ⟨x, List.mem_cons_of_mem _ inside', found⟩

theorem perform_allPairs {test : Value → Value → Eval Bool}
    (decides : ∀ v u x y, P v x → Q u y →
      ∃ b, perform m (test x y) = (.ok b, m) ∧ (b = true → T v u))
    (first : List.Forall₂ P vs xs) (second : List.Forall₂ Q us ys) :
    ∃ b, perform m (allPairs test xs ys) = (.ok b, m) ∧ (b = true → List.Forall₂ T vs us) := by
  induction first generalizing us ys with
  | nil =>
    cases second with
    | nil => exact ⟨true, rfl, fun _ => .nil⟩
    | cons _ _ => exact ⟨false, rfl, nofun⟩
  | cons related _ ih =>
    cases second with
    | nil => exact ⟨false, rfl, nofun⟩
    | cons related' rest =>
      obtain ⟨b, run, holds⟩ := decides _ _ _ _ related related'
      rw [allPairs, perform_bind run]
      cases b with
      | false => exact ⟨false, rfl, nofun⟩
      | true =>
        obtain ⟨b', run', holds'⟩ := ih rest
        exact ⟨b', run', fun yes => .cons (holds rfl) (holds' yes)⟩

theorem perform_someElement {test : Value → Eval Bool} {S : Value → Prop}
    (decides : ∀ u y, Q u y → ∃ b, perform m (test y) = (.ok b, m) ∧ (b = true → S u))
    (related : List.Forall₂ Q us ys) :
    ∃ b, perform m (someElement test ys) = (.ok b, m) ∧ (b = true → ∃ u ∈ us, S u) := by
  induction related with
  | nil => exact ⟨false, rfl, nofun⟩
  | cons front _ ih =>
    obtain ⟨b, run, holds⟩ := decides _ _ front
    rw [someElement, perform_bind run]
    cases b with
    | true => exact ⟨true, rfl, fun _ => ⟨_, List.mem_cons_self .., holds rfl⟩⟩
    | false =>
      obtain ⟨b', run', holds'⟩ := ih
      refine ⟨b', run', fun yes => ?_⟩
      obtain ⟨u, inside, found⟩ := holds' yes
      exact ⟨u, List.mem_cons_of_mem _ inside, found⟩

theorem perform_everyElement {test : Value → Eval Bool} {S : Value → Prop}
    (decides : ∀ v x, P v x → ∃ b, perform m (test x) = (.ok b, m) ∧ (b = true → S v))
    (related : List.Forall₂ P vs xs) :
    ∃ b, perform m (everyElement test xs) = (.ok b, m) ∧ (b = true → ∀ v ∈ vs, S v) := by
  induction related with
  | nil => exact ⟨true, rfl, fun _ => by simp⟩
  | cons front _ ih =>
    obtain ⟨b, run, holds⟩ := decides _ _ front
    rw [everyElement, perform_bind run]
    cases b with
    | false => exact ⟨false, rfl, nofun⟩
    | true =>
      obtain ⟨b', run', holds'⟩ := ih
      exact ⟨b', run', fun yes => List.forall_mem_cons.mpr ⟨holds rfl, holds' yes⟩⟩

end Tests

/-! ## Asking classes -/

theorem perform_ask (standard : Standard m) {a : Value} (settled : Settled m a) (r : Interpreter)
    (name : String) (b : Value) : perform m (ask r a name b) = (.ok none, m) := by
  cases a with
  | scalar s => rfl
  | ref i =>
    rw [ask, perform_bind (perform_callOwn standard settled r name [b])]
    rfl

theorem perform_askBoth (standard : Standard m) {a b : Value} (first : Settled m a)
    (second : Settled m b) (r : Interpreter) (name reflected : String) :
    perform m (askBoth r a name b reflected) = (.ok none, m) := by
  obtain ⟨left, known, left_run⟩ := perform_classOf first
  obtain ⟨right, known', right_run⟩ := perform_classOf second
  have special : ∃ answer, perform m (isMoreSpecial b a) = (.ok answer, m) := by
    refine ⟨left ≠ right && (knownClass classTable[right]).lineage.contains left, ?_⟩
    rw [isMoreSpecial, perform_bind left_run, perform_bind right_run]
    rw [perform_bind (perform_descends standard known' left)]
    rfl
  obtain ⟨answer, special⟩ := special
  unfold askBoth
  split
  · rfl
  · refine (perform_bind special).trans ?_
    cases answer with
    | true =>
      refine (perform_bind (perform_ask standard second r reflected a)).trans ?_
      exact perform_ask standard first r name b
    | false =>
      refine (perform_bind (perform_ask standard first r name b)).trans ?_
      exact perform_ask standard second r reflected a

/-! ## Comparing copies -/

section Comparing

variable {graph : Graph} {place : Nat → Option Nat} {low middle middle' high : Nat}
variable {r : Interpreter}

theorem Copy.settled
    (fillable : PlacesFillable graph place)
    {depth : Nat} {v w : Value} (hashable : Hashable graph v)
    (copy : Copy graph place m.heap low high depth v w) : Settled m w := by
  obtain ⟨s, t, rfl, rfl, _⟩ | ⟨inner, i, j, xs, ys, _, rfl, rfl, kinds, _⟩ :=
    copy.of_hashable fillable hashable
  · trivial
  · obtain ⟨_, found⟩ | ⟨_, found⟩ := kinds
    · exact ⟨_, found, rfl⟩
    · exact ⟨_, found, rfl⟩

/-- One value that is a copy of two keys, made at different times, is a copy of equal keys. -/
theorem sameKey_of_copy_eq
    (fillable : PlacesFillable graph place)
    (apart : middle ≤ middle') {heap : Array Cell} {depth : Nat}
    {v u w : Value} (hashable : Hashable graph v) (hashable' : Hashable graph u)
    (copy : Copy graph place heap low middle depth v w)
    (copy' : Copy graph place heap middle' high depth u w) :
    graph.sameKey (depth + 1) v u = true := by
  induction depth using Nat.strongRecOn generalizing v u w with
  | ind depth ih =>
    obtain ⟨s, t, rfl, rfl, matched, fresh⟩ |
      ⟨inner, i, j, xs, zs, rfl, rfl, rfl, kinds, held, related⟩ :=
      copy.of_hashable fillable hashable
    · obtain ⟨s', t', rfl, same, matched', fresh'⟩ | ⟨_, _, _, _, _, _, _, other, _⟩ :=
        copy'.of_hashable fillable hashable'
      · cases same
        exact Graph.sameKey_scalar
          (.inl (Scalar.eq_of_fresh matched matched' fresh fresh' apart rfl))
      · cases other
    · obtain ⟨_, _, _, other, _⟩ |
        ⟨inner', i', j', ys, zs', size, rfl, same, kinds', held', related'⟩ :=
        copy'.of_hashable fillable hashable'
      · cases other
      · cases same
        cases size
        have pairs : ∀ {zs : List Value}, List.Forall₂ (Copy graph place heap low middle inner) xs zs →
            List.Forall₂ (Copy graph place heap middle' high inner) ys zs →
            List.Forall₂ (fun x y => graph.sameKey (inner + 1) x y = true) xs ys := by
          intro zs first second
          have first' := (List.forall₂_and_left _ _).mpr ⟨held, first⟩
          have second' := (List.forall₂_and_left _ _).mpr ⟨held', second⟩
          refine forall₂_common first' second' ?_
          rintro x y z ⟨isHashable, copied⟩ ⟨isHashable', copied'⟩
          exact ih inner (by omega) isHashable isHashable' copied copied'
        obtain ⟨first, found⟩ | ⟨first, found⟩ := kinds <;>
          obtain ⟨second, found'⟩ | ⟨second, found'⟩ := kinds' <;>
          rw [found] at found' <;> cases found'
        · exact Graph.sameKey_tuple first second (pairs related related')
        · have same := pairs related related'
          refine Graph.sameKey_frozenset first second same.length_eq fun x inside => ?_
          exact forall₂_exists same inside

theorem perform_plainEqual_scalar {i : Nat} {cell : Cell} (found : m.heap[i]? = some cell)
    (container : cell.isContainer = true) (same : Value → Value → Eval Bool) (s : Scalar) :
    perform m (plainEqual same (.scalar s) (.ref i)) = (.ok false, m) ∧
      perform m (plainEqual same (.ref i) (.scalar s)) = (.ok false, m) := by
  have settled : Settled m (.ref i) := ⟨cell, found, container⟩
  have settled' : Settled m (.scalar s) := trivial
  constructor
  · rw [plainEqual, perform_bind (perform_unwrap settled'), perform_bind (perform_unwrap settled)]
    refine (perform_bind (perform_cellAt_some found)).trans ?_
    cases cell <;> first | rfl | cases container
  · rw [plainEqual, perform_bind (perform_unwrap settled), perform_bind (perform_unwrap settled')]
    refine (perform_bind (perform_cellAt_some found)).trans ?_
    cases cell <;> first | rfl | cases container

theorem perform_plainEqual_self {i : Nat} (settled : Settled m (.ref i))
    (same : Value → Value → Eval Bool) :
    perform m (plainEqual same (.ref i) (.ref i)) = (.ok true, m) := by
  rw [plainEqual, perform_bind (perform_unwrap settled), perform_bind (perform_unwrap settled)]
  simp only [if_true]
  rfl

def element (same : Value → Value → Eval Bool) (x y : Value) : Eval Bool :=
  if x = y then pure true else same x y

theorem perform_plainEqual_tuples {i j : Nat} {xs ys : List Value} (different : i ≠ j)
    (found : m.heap[i]? = some (.tuple xs)) (found' : m.heap[j]? = some (.tuple ys))
    (same : Value → Value → Eval Bool) :
    perform m (plainEqual same (.ref i) (.ref j)) =
      if xs.length ≠ ys.length then (.ok false, m)
      else perform m (allPairs (element same) xs ys) := by
  have settled : Settled m (.ref i) := ⟨_, found, rfl⟩
  have settled' : Settled m (.ref j) := ⟨_, found', rfl⟩
  rw [plainEqual, perform_bind (perform_unwrap settled), perform_bind (perform_unwrap settled')]
  simp only [if_neg different]
  rw [perform_bind (perform_cellAt_some found), perform_bind (perform_cellAt_some found')]
  simp only
  split <;> rfl

theorem perform_plainEqual_frozensets {i j : Nat} {xs ys : List Value} (different : i ≠ j)
    (found : m.heap[i]? = some (.frozenset xs)) (found' : m.heap[j]? = some (.frozenset ys))
    (same : Value → Value → Eval Bool) :
    perform m (plainEqual same (.ref i) (.ref j)) =
      if xs.length ≠ ys.length then (.ok false, m)
      else perform m (everyElement (fun x => someElement (element same x) ys) xs) := by
  have settled : Settled m (.ref i) := ⟨_, found, rfl⟩
  have settled' : Settled m (.ref j) := ⟨_, found', rfl⟩
  rw [plainEqual, perform_bind (perform_unwrap settled), perform_bind (perform_unwrap settled')]
  simp only [if_neg different]
  rw [perform_bind (perform_cellAt_some found), perform_bind (perform_cellAt_some found')]
  have listed : ∀ items, perform m (inclusionElements? (.frozenset items)) = (.ok (some items), m) :=
    fun _ => rfl
  simp only [entries?]
  rw [perform_bind (listed xs), perform_bind (listed ys)]
  simp only
  split <;> rfl

theorem perform_plainEqual_mixed {i j : Nat} {xs ys : List Value} {cell cell' : Cell}
    (found : m.heap[i]? = some cell) (found' : m.heap[j]? = some cell')
    (kinds : cell = .tuple xs ∧ cell' = .frozenset ys ∨ cell = .frozenset xs ∧ cell' = .tuple ys)
    (same : Value → Value → Eval Bool) :
    perform m (plainEqual same (.ref i) (.ref j)) = (.ok false, m) := by
  have different : i ≠ j := by
    rintro rfl
    rw [found] at found'
    rcases kinds with ⟨rfl, rfl⟩ | ⟨rfl, rfl⟩ <;> cases found'
  have settled : Settled m (.ref i) := ⟨_, found, by rcases kinds with ⟨rfl, _⟩ | ⟨rfl, _⟩ <;> rfl⟩
  have settled' : Settled m (.ref j) := ⟨_, found', by rcases kinds with ⟨_, rfl⟩ | ⟨_, rfl⟩ <;> rfl⟩
  rw [plainEqual, perform_bind (perform_unwrap settled), perform_bind (perform_unwrap settled')]
  simp only [if_neg different]
  rw [perform_bind (perform_cellAt_some found), perform_bind (perform_cellAt_some found')]
  rcases kinds with ⟨rfl, rfl⟩ | ⟨rfl, rfl⟩ <;> rfl

/-- Comparing copies of keys that were made one after the other: they are equal only if the keys are. -/
theorem perform_equalIn (standard : Standard m)
    (fillable : PlacesFillable graph place)
    (apart : middle ≤ middle') {depth fuel : Nat} (deep : depth < fuel)
    {v u x y : Value} (hashable : Hashable graph v) (hashable' : Hashable graph u)
    (copy : Copy graph place m.heap low middle depth v x)
    (copy' : Copy graph place m.heap middle' high depth u y) :
    ∃ b, perform m (equalIn r fuel x y) = (.ok b, m) ∧
      (b = true → graph.sameKey (depth + 1) v u = true) := by
  induction depth using Nat.strongRecOn generalizing fuel v u x y with
  | ind depth ih =>
    obtain ⟨fuel, rfl⟩ : ∃ k, fuel = k + 1 := ⟨fuel - 1, by omega⟩
    have settled := copy.settled fillable hashable
    have settled' := copy'.settled fillable hashable'
    rw [equalIn, perform_bind (perform_askBoth standard settled settled' r _ _)]
    obtain ⟨s, t, rfl, rfl, matched, fresh⟩ |
      ⟨inner, i, j, vs, xs, rfl, rfl, rfl, kinds, held, related⟩ :=
      copy.of_hashable fillable hashable
    · obtain ⟨s', t', rfl, rfl, matched', fresh'⟩ | ⟨_, _, _, _, _, _, rfl, rfl, kinds', _⟩ :=
        copy'.of_hashable fillable hashable'
      · exact ⟨t.same t', rfl, fun same =>
          Graph.sameKey_scalar (.inr (Scalar.same_of_matches matched matched' same))⟩
      · obtain ⟨cell, found, container⟩ := settled'
        exact ⟨false, (perform_plainEqual_scalar found container _ t).1, nofun⟩
    · obtain ⟨s', t', rfl, rfl, _⟩ |
        ⟨inner', i', j', us, ys, size, rfl, rfl, kinds', held', related'⟩ :=
        copy'.of_hashable fillable hashable'
      · obtain ⟨cell, found, container⟩ := settled
        exact ⟨false, (perform_plainEqual_scalar found container _ t').2, nofun⟩
      · cases size
        have decides : ∀ v u x y, (Hashable graph v ∧ Copy graph place m.heap low middle inner v x) →
            (Hashable graph u ∧ Copy graph place m.heap middle' high inner u y) →
            ∃ b, perform m (element (equalIn r fuel) x y) = (.ok b, m) ∧
              (b = true → graph.sameKey (inner + 1) v u = true) := by
          rintro v u x y ⟨isHashable, copied⟩ ⟨isHashable', copied'⟩
          by_cases equal : x = y
          · subst equal
            rw [element, if_pos rfl]
            exact ⟨true, rfl, fun _ => sameKey_of_copy_eq fillable apart isHashable
              isHashable' copied copied'⟩
          · rw [element, if_neg equal]
            exact ih inner (by omega) (by omega) isHashable isHashable' copied copied'
        have first := (List.forall₂_and_left _ _).mpr ⟨held, related⟩
        have second := (List.forall₂_and_left _ _).mpr ⟨held', related'⟩
        by_cases equal : j = j'
        · subst equal
          exact ⟨true, perform_plainEqual_self settled _, fun _ =>
            sameKey_of_copy_eq fillable apart hashable hashable' copy copy'⟩
        · obtain ⟨object, found⟩ | ⟨object, found⟩ := kinds <;>
            obtain ⟨object', found'⟩ | ⟨object', found'⟩ := kinds'
          · rw [perform_plainEqual_tuples equal found found']
            split
            · exact ⟨false, rfl, nofun⟩
            · obtain ⟨b, run, holds⟩ := perform_allPairs decides first second
              exact ⟨b, run, fun yes => Graph.sameKey_tuple object object' (holds yes)⟩
          · exact ⟨false, perform_plainEqual_mixed found found' (.inl ⟨rfl, rfl⟩) _, nofun⟩
          · exact ⟨false, perform_plainEqual_mixed found found' (.inr ⟨rfl, rfl⟩) _, nofun⟩
          · rw [perform_plainEqual_frozensets equal found found']
            split
            · exact ⟨false, rfl, nofun⟩
            · rename_i size
              obtain ⟨b, run, holds⟩ := perform_everyElement (fun v x related =>
                perform_someElement (fun u y related' => decides v u x y related related') second)
                first
              have length : vs.length = us.length := by
                have left := related.length_eq
                have right := related'.length_eq
                omega
              exact ⟨b, run, fun yes =>
                Graph.sameKey_frozenset object object' length (holds yes)⟩

theorem perform_alike (standard : Standard m)
    (fillable : PlacesFillable graph place)
    (apart : middle ≤ middle') {depth : Nat} (deep : depth < r.compareDepth)
    {v u x y : Value} (hashable : Hashable graph v) (hashable' : Hashable graph u)
    (copy : Copy graph place m.heap low middle depth v x)
    (copy' : Copy graph place m.heap middle' high depth u y)
    (unlike : graph.Unlike v u) :
    perform m (alike r x y) = (.ok false, m) := by
  by_cases identical : x = y
  · subst identical
    have same := sameKey_of_copy_eq fillable apart hashable hashable' copy copy'
    rw [unlike] at same
    cases same
  · obtain ⟨b, run, holds⟩ :=
      perform_equalIn (r := r) standard fillable apart deep hashable hashable' copy copy'
    rw [alike, if_neg identical, equal, run]
    cases b with
    | false => rfl
    | true =>
      have same := holds rfl
      rw [unlike] at same
      cases same

/-! ## Binding keys -/

theorem perform_forM {action : Value → Eval Unit} {items : List Value}
    (runs : ∀ x ∈ items, perform m (action x) = (.ok (), m)) :
    perform m (items.forM action) = (.ok (), m) := by
  induction items with
  | nil => rfl
  | cons x rest ih =>
    refine (perform_bind (runs x (List.mem_cons_self ..))).trans ?_
    exact ih fun y inside => runs y (List.mem_cons_of_mem _ inside)

theorem perform_requireKeyIn
    (fillable : PlacesFillable graph place)
    {depth : Nat} (fuel : Nat) {v x : Value} (hashable : Hashable graph v)
    (copy : Copy graph place m.heap low high depth v x) :
    perform m (requireKeyIn fuel x) = (.ok (), m) := by
  induction fuel generalizing depth v x with
  | zero => rfl
  | succ fuel ih =>
    obtain ⟨s, t, rfl, rfl, _⟩ | ⟨inner, i, j, vs, xs, rfl, rfl, rfl, kinds, held, related⟩ :=
      copy.of_hashable fillable hashable
    · rfl
    · obtain ⟨_, found⟩ | ⟨_, found⟩ := kinds
      · rw [requireKeyIn]
        refine (perform_bind (perform_cellAt_some found)).trans (perform_forM ?_)
        intro y inside
        obtain ⟨u, inside', copied⟩ := forall₂_exists related.flip inside
        exact ih (held u inside') copied
      · rw [requireKeyIn]
        exact (perform_bind (perform_cellAt_some found)).trans rfl

theorem perform_requireKey (fillable : PlacesFillable graph place) {depth : Nat} {v x : Value}
    (hashable : Hashable graph v) (copy : Copy graph place m.heap low high depth v x) :
    perform m (requireKey x) = (.ok (), m) :=
  perform_requireKeyIn fillable hashDepth hashable copy

/-- Values copied one after the other: the undefined numbers of each were made behind those of the
values before it. -/
inductive Made (graph : Graph) (place : Nat → Option Nat) (heap : Array Cell) (depth : Nat) :
    Nat → Nat → List Value → List Value → Prop where
  | nil {low high : Nat} (upTo : low ≤ high) : Made graph place heap depth low high [] []
  | cons {low low' middle high : Nat} {v x : Value} {vs xs : List Value} (behind : low ≤ low')
      (upTo : low' ≤ middle) (copy : Copy graph place heap low' middle depth v x)
      (rest : Made graph place heap depth middle high vs xs) :
      Made graph place heap depth low high (v :: vs) (x :: xs)

variable {depth : Nat} {vs us xs ys : List Value}

theorem Made.le {heap : Array Cell} (made : Made graph place heap depth low high vs xs) :
    low ≤ high := by
  induction made with
  | nil upTo => exact upTo
  | cons behind upTo _ _ ih => omega

theorem Made.forall₂ {heap : Array Cell} (made : Made graph place heap depth low high vs xs) :
    List.Forall₂ (Copy graph place heap low high depth) vs xs := by
  induction made with
  | nil upTo => exact .nil
  | cons behind upTo copy rest ih =>
    have above := rest.le
    refine .cons (copy.mono behind above (fun _ _ _ => id) (Nat.le_refl _)) ?_
    exact ih.imp fun v x copied =>
      copied.mono (by omega) (Nat.le_refl _) (fun _ _ _ => id) (Nat.le_refl _)

theorem Made.append {heap : Array Cell} (first : Made graph place heap depth low middle vs xs)
    (second : Made graph place heap depth middle high us ys) :
    Made graph place heap depth low high (vs ++ us) (xs ++ ys) := by
  induction first with
  | nil upTo =>
    cases second with
    | nil upTo' => exact .nil (Nat.le_trans upTo upTo')
    | cons behind upTo' copy rest => exact .cons (Nat.le_trans upTo behind) upTo' copy rest
  | cons behind upTo copy rest ih => exact .cons behind upTo copy (ih second)

theorem Made.mono {heap heap' : Array Cell}
    (kept : ∀ j cell, (∀ k, place k ≠ some j) → heap[j]? = some cell → heap'[j]? = some cell)
    (made : Made graph place heap depth low high vs xs) :
    Made graph place heap' depth low high vs xs := by
  induction made with
  | nil upTo => exact .nil upTo
  | cons behind upTo copy rest ih =>
    exact .cons behind upTo (copy.mono (Nat.le_refl _) (Nat.le_refl _) kept (Nat.le_refl _)) ih

theorem perform_someElement_false {test : Value → Eval Bool}
    (never : ∀ x ∈ xs, perform m (test x) = (.ok false, m)) :
    perform m (someElement test xs) = (.ok false, m) := by
  induction xs with
  | nil => rfl
  | cons x rest ih =>
    rw [someElement, perform_bind (never x (List.mem_cons_self ..))]
    exact ih fun y inside => never y (List.mem_cons_of_mem _ inside)

theorem perform_findEntry_none {test : Value → Eval Bool} {entries : List (Value × Value)}
    (never : ∀ e ∈ entries, perform m (test e.1) = (.ok false, m)) :
    perform m (findEntry test entries) = (.ok none, m) := by
  induction entries with
  | nil => rfl
  | cons e rest ih =>
    rw [findEntry, perform_bind (never e (List.mem_cons_self ..))]
    exact ih fun y inside => never y (List.mem_cons_of_mem _ inside)

/-- A new key is unlike all keys that were copied before it. -/
theorem perform_alike_all (standard : Standard m) (fillable : PlacesFillable graph place)
    (apart : middle ≤ middle') (deep : depth < r.compareDepth)
    (before : List.Forall₂ (Copy graph place m.heap low middle depth) vs xs)
    (hashable : ∀ v ∈ vs, Hashable graph v) {u y : Value} (hashable' : Hashable graph u)
    (copy : Copy graph place m.heap middle' high depth u y)
    (unlike : ∀ v ∈ vs, graph.Unlike v u) :
    ∀ x ∈ xs, perform m (alike r x y) = (.ok false, m) := by
  intro x inside
  obtain ⟨v, inside', copied⟩ := forall₂_exists before.flip inside
  exact perform_alike standard fillable apart deep (hashable v inside') hashable' copied copy
    (unlike v inside')

theorem perform_addElement (standard : Standard m) (fillable : PlacesFillable graph place)
    (apart : middle ≤ middle') (deep : depth < r.compareDepth)
    (before : List.Forall₂ (Copy graph place m.heap low middle depth) vs xs)
    (hashable : ∀ v ∈ vs, Hashable graph v) {u y : Value} (hashable' : Hashable graph u)
    (copy : Copy graph place m.heap middle' high depth u y)
    (unlike : ∀ v ∈ vs, graph.Unlike v u) :
    perform m (addElement r xs y) = (.ok (xs ++ [y]), m) := by
  have absent : perform m (hasElement r xs y) = (.ok false, m) :=
    perform_someElement_false (perform_alike_all standard fillable apart deep before hashable
      hashable' copy unlike)
  rw [addElement, perform_bind (perform_requireKey fillable hashable' copy),
    perform_bind absent]
  rfl

theorem perform_setEntry (standard : Standard m) (fillable : PlacesFillable graph place)
    (apart : middle ≤ middle') (deep : depth < r.compareDepth)
    {entries : List (Value × Value)}
    (before : List.Forall₂ (Copy graph place m.heap low middle depth) vs (entries.map Prod.fst))
    (hashable : ∀ v ∈ vs, Hashable graph v) {u y : Value} (hashable' : Hashable graph u)
    (copy : Copy graph place m.heap middle' high depth u y)
    (unlike : ∀ v ∈ vs, graph.Unlike v u) (value : Value) :
    perform m (setEntry r entries y value) = (.ok (entries ++ [(y, value)]), m) := by
  have absent : perform m (findEntry (fun k => alike r k y) entries) = (.ok none, m) := by
    refine perform_findEntry_none fun e inside => ?_
    exact perform_alike_all standard fillable apart deep before hashable hashable' copy unlike
      e.1 (List.mem_map_of_mem inside)
  rw [setEntry, perform_bind (perform_requireKey fillable hashable' copy),
    perform_bind absent]
  rfl

theorem perform_addElements (standard : Standard m) (fillable : PlacesFillable graph place)
    (deep : depth < r.compareDepth)
    (before : Made graph place m.heap depth low middle vs xs)
    (made : Made graph place m.heap depth middle high us ys)
    (hashable : ∀ v ∈ vs ++ us, Hashable graph v) (unlike : (vs ++ us).Pairwise graph.Unlike) :
    perform m (addElements r xs ys) = (.ok (xs ++ ys), m) := by
  induction us generalizing vs xs ys middle with
  | nil =>
    cases made
    rw [List.append_nil]
    rfl
  | cons u us ih =>
    cases made with
    | @cons _ low' middle' _ _ y _ ys behind upTo copy rest =>
      have isHashable : ∀ v ∈ vs, Hashable graph v := fun v inside =>
        hashable v (List.mem_append_left _ inside)
      have apart : ∀ v ∈ vs, graph.Unlike v u := fun v inside =>
        (List.pairwise_append.mp unlike).2.2 v inside u (List.mem_cons_self ..)
      have added := perform_addElement (r := r) standard fillable behind deep
        before.forall₂ isHashable (hashable u (by simp)) copy apart
      rw [addElements, perform_bind added]
      have extended : Made graph place m.heap depth low middle' (vs ++ [u]) (xs ++ [y]) :=
        before.append (.cons behind upTo copy (.nil (Nat.le_refl _)))
      have final := ih extended rest (by simpa using hashable) (by simpa using unlike)
      simpa using final

theorem perform_setEntries (standard : Standard m) (fillable : PlacesFillable graph place)
    (deep : depth < r.compareDepth) {entries news : List (Value × Value)}
    (before : Made graph place m.heap depth low middle vs (entries.map Prod.fst))
    (made : Made graph place m.heap depth middle high us (news.map Prod.fst))
    (hashable : ∀ v ∈ vs ++ us, Hashable graph v) (unlike : (vs ++ us).Pairwise graph.Unlike) :
    perform m (setEntries r entries news) = (.ok (entries ++ news), m) := by
  induction us generalizing vs entries news middle with
  | nil =>
    cases news with
    | nil =>
      rw [List.append_nil]
      rfl
    | cons e rest => cases made
  | cons u us ih =>
    cases news with
    | nil => cases made
    | cons e rest =>
      obtain ⟨y, value⟩ := e
      cases made with
      | @cons _ low' middle' _ _ _ _ _ behind upTo copy made' =>
        have isHashable : ∀ v ∈ vs, Hashable graph v := fun v inside =>
          hashable v (List.mem_append_left _ inside)
        have apart : ∀ v ∈ vs, graph.Unlike v u := fun v inside =>
          (List.pairwise_append.mp unlike).2.2 v inside u (List.mem_cons_self ..)
        have added := perform_setEntry (r := r) standard fillable behind deep
          before.forall₂ isHashable (hashable u (by simp)) copy apart value
        rw [setEntries, perform_bind added]
        have extended : Made graph place m.heap depth low middle' (vs ++ [u])
            ((entries ++ [(y, value)]).map Prod.fst) := by
          rw [List.map_append]
          exact before.append (.cons behind upTo copy (.nil (Nat.le_refl _)))
        have final := ih extended made' (by simpa using hashable) (by simpa using unlike)
        simpa using final

end Comparing

end Sandbox

end MacroExpand
