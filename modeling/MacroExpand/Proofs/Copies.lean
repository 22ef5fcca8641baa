import MacroExpand.Proofs.Performing
import Mathlib.Data.List.Forall2

/-!
# Copies of values

A value of a memory is a copy of a value of a graph when the two have the same shape: containers of
the same kind with copies of the same elements in the same order, down to equal scalars.  Undefined
numbers match each other, whatever their bits.  Objects that have a place in the memory are copied by
that place, and every undefined number of a copy was made in a stretch of time of its own.
-/

set_option autoImplicit false

namespace MacroExpand

/-! ## Numbers -/

namespace Double

def Matches (d e : Double) : Prop := d = e ∨ d.isUndefined = true ∧ e.isUndefined = true

def FreshIn (low high : Nat) (d : Double) : Prop :=
  d.isUndefined = true → ∃ k, low < k ∧ k ≤ high ∧ d = undefined.distinct k

theorem Matches.refl (d : Double) : d.Matches d := .inl rfl

theorem Matches.eq_of_defined {d e : Double} (matched : d.Matches e)
    (isDefined : e.isUndefined = false) : d = e := by
  rcases matched with same | ⟨_, isUndefined⟩
  · exact same
  · rw [isUndefined] at isDefined; cases isDefined

theorem defined_of_isZero {d : Double} (zero : d.isZero = true) : d.isUndefined = false := by
  simp only [isZero, Bool.or_eq_true, beq_iff_eq] at zero
  rcases zero with zero | zero <;> simp [isUndefined, kind, zero]

theorem defined_of_ofDouble {d : Double} {q : Quotient} (value : Quotient.ofDouble? d = some q) :
    d.isUndefined = false := by
  unfold Quotient.ofDouble? at value
  split at value
  · rename_i kind
    simp [isUndefined, kind]
  · cases value

theorem FreshIn.mono {d : Double} {low low' high high' : Nat} (fresh : d.FreshIn low high)
    (below : low' ≤ low) (above : high ≤ high') : d.FreshIn low' high' := by
  intro isUndefined
  obtain ⟨k, behind, upTo, made⟩ := fresh isUndefined
  exact ⟨k, by omega, by omega, made⟩

theorem distinct_undefined (k : Nat) : undefined.distinct k = ⟨.undefined k⟩ :=
  if_pos (by decide)

theorem distinct_of_isUndefined {d : Double} (isUndefined : d.isUndefined = true) (k : Nat) :
    d.distinct k = undefined.distinct k := by
  rw [distinct_undefined, distinct, if_pos isUndefined]

theorem distinct_isUndefined (k : Nat) : (undefined.distinct k).isUndefined = true := by
  have same : (undefined.distinct k).word = undefined.word := by rw [distinct_undefined]; rfl
  have isUndefined : undefined.isUndefined = true := by decide
  rwa [Double.isUndefined, kind, same]

theorem distinct_injective {k l : Nat} (same : undefined.distinct k = undefined.distinct l) : k = l := by
  rw [distinct_undefined, distinct_undefined] at same
  cases same
  rfl

/-- Undefined numbers that were made at different times are different. -/
theorem eq_of_fresh {d e d' e' : Double} {low middle middle' high : Nat}
    (first : d.Matches d') (second : e.Matches e') (fresh : d'.FreshIn low middle)
    (fresh' : e'.FreshIn middle' high) (apart : middle ≤ middle') (same : d' = e') : d = e := by
  have defined : d'.isUndefined = false := by
    by_contra undefined
    rw [Bool.not_eq_false] at undefined
    obtain ⟨k, above, below, made⟩ := fresh undefined
    obtain ⟨l, above', below', made'⟩ := fresh' (same ▸ undefined)
    have equal := distinct_injective (made.symm.trans (same.trans made'))
    omega
  rw [first.eq_of_defined defined, second.eq_of_defined (same ▸ defined), same]

end Double

namespace Scalar

def Matches : Scalar → Scalar → Prop
  | .float d, .float e => d.Matches e
  | .complex re im, .complex re' im' => re.Matches re' ∧ im.Matches im'
  | s, t => s = t

def FreshIn (low high : Nat) : Scalar → Prop
  | .float d => d.FreshIn low high
  | .complex re im => re.FreshIn low high ∧ im.FreshIn low high
  | _ => True

theorem Matches.refl (s : Scalar) : s.Matches s := by
  cases s <;> simp [Matches, Double.Matches.refl]

def isDefined : Scalar → Bool
  | .float d => !d.isUndefined
  | .complex re im => !re.isUndefined && !im.isUndefined
  | _ => true

theorem Matches.eq_of_isDefined {s t : Scalar} (matched : s.Matches t)
    (isDefined : t.isDefined = true) : s = t := by
  cases s <;> cases t <;> simp only [Matches, reduceCtorEq] at matched
  case float.float d e =>
    rw [matched.eq_of_defined (by simpa [Scalar.isDefined] using isDefined)]
  case complex.complex re im re' im' =>
    simp only [Scalar.isDefined, Bool.and_eq_true, Bool.not_eq_true'] at isDefined
    rw [matched.1.eq_of_defined isDefined.1, matched.2.eq_of_defined isDefined.2]
  all_goals first | rfl | exact matched

theorem isDefined_of_rational {s : Scalar} {q : Quotient} (value : s.rational? = some q) :
    s.isDefined = true := by
  cases s with
  | float d => simpa [isDefined] using Double.defined_of_ofDouble value
  | complex re im =>
    simp only [rational?] at value
    split at value
    · rename_i zero
      simp [isDefined, Double.defined_of_ofDouble value, Double.defined_of_isZero zero]
    · cases value
  | _ => rfl

/-- A scalar that holds an undefined number is equal to nothing. -/
theorem isDefined_of_same {s t : Scalar} (same : s.same t = true) :
    s.isDefined = true ∧ t.isDefined = true := by
  unfold Scalar.same at same
  split at same
  · rename_i left right
    exact ⟨isDefined_of_rational left, isDefined_of_rational right⟩
  · cases same
  · cases same
  · split at same
    · simp only [Bool.and_eq_true, Bool.not_eq_true', beq_iff_eq] at same
      obtain ⟨real, rfl⟩ := same
      simp [isDefined, real]
    · simp only [Bool.and_eq_true, Bool.not_eq_true', beq_iff_eq] at same
      obtain ⟨⟨real, rfl⟩, zero⟩ := same
      simp [isDefined, real, Double.defined_of_isZero zero]
    · simp only [Bool.and_eq_true, Bool.not_eq_true', beq_iff_eq] at same
      obtain ⟨⟨real, rfl⟩, zero⟩ := same
      simp [isDefined, real, Double.defined_of_isZero zero]
    · simp only [Bool.and_eq_true, Bool.or_eq_true, Bool.not_eq_true', beq_iff_eq] at same
      obtain ⟨⟨real, equal⟩, imag, equal'⟩ := same
      have other : ∀ {x y : Double}, x.isUndefined = false →
          (x = y ∨ x.isZero = true ∧ y.isZero = true) → y.isUndefined = false := by
        rintro x y isDefined (rfl | ⟨_, zero⟩)
        · exact isDefined
        · exact Double.defined_of_isZero zero
      simp [isDefined, real, imag, other real equal, other imag equal']
    · rename_i notFloat notMixed notMixed' notComplex
      have equal := of_decide_eq_true same
      subst equal
      cases s with
      | float d => exact (notFloat d d rfl rfl).elim
      | complex re im => exact (notComplex re im re im rfl rfl).elim
      | _ => exact ⟨rfl, rfl⟩

theorem same_of_matches {s t s' t' : Scalar} (first : s.Matches s') (second : t.Matches t')
    (same : s'.same t' = true) : s.same t = true := by
  obtain ⟨left, right⟩ := isDefined_of_same same
  rw [first.eq_of_isDefined left, second.eq_of_isDefined right, same]

/-- Equal copies that were made at different times are copies of equal scalars. -/
theorem eq_of_fresh {s t s' t' : Scalar} {low middle middle' high : Nat}
    (first : s.Matches s') (second : t.Matches t') (fresh : s'.FreshIn low middle)
    (fresh' : t'.FreshIn middle' high) (apart : middle ≤ middle') (same : s' = t') : s = t := by
  subst same
  cases s <;> cases s' <;> simp only [Matches, reduceCtorEq] at first <;>
    cases t <;> simp only [Matches, reduceCtorEq] at second
  case float.float.float d e d' =>
    rw [Double.eq_of_fresh first second fresh fresh' apart rfl]
  case complex.complex.complex re im re' im' re₂ im₂ =>
    rw [Double.eq_of_fresh first.1 second.1 fresh.1 fresh'.1 apart rfl,
      Double.eq_of_fresh first.2 second.2 fresh.2 fresh'.2 apart rfl]
  all_goals first | rfl | rw [first, second]

theorem FreshIn.mono {s : Scalar} {low low' high high' : Nat} (fresh : s.FreshIn low high)
    (below : low' ≤ low) (above : high ≤ high') : s.FreshIn low' high' := by
  cases s with
  | float d => exact Double.FreshIn.mono fresh below above
  | complex re im =>
    exact ⟨Double.FreshIn.mono fresh.1 below above, Double.FreshIn.mono fresh.2 below above⟩
  | _ => trivial

theorem FreshIn.of_isDefined {s : Scalar} {low high : Nat} (isDefined : s.isDefined = true) :
    s.FreshIn low high := by
  cases s with
  | float d => exact fun undefined => by simp [Scalar.isDefined, undefined] at isDefined
  | complex re im =>
    simp only [Scalar.isDefined, Bool.and_eq_true, Bool.not_eq_true'] at isDefined
    exact ⟨fun undefined => by simp [undefined] at isDefined,
      fun undefined => by simp [undefined] at isDefined⟩
  | _ => trivial

end Scalar

/-! ## Keys -/

/-- The values of a graph that can be keys: scalars, and tuples and frozen sets of such values. -/
inductive Hashable (graph : Graph) : Value → Prop where
  | scalar (s : Scalar) : Hashable graph (.scalar s)
  | tuple {i : Nat} {items : List Value} (object : graph[i]? = some (.tuple items))
      (held : ∀ x ∈ items, Hashable graph x) : Hashable graph (.ref i)
  | frozenset {i : Nat} {items : List Value} (object : graph[i]? = some (.frozenset items))
      (held : ∀ x ∈ items, Hashable graph x) : Hashable graph (.ref i)

namespace Sandbox

/-! ## Objects and cells -/

def CellCopy (R : Value → Value → Prop) : Object → Cell → Prop
  | .list xs, .list ys => List.Forall₂ R xs ys
  | .tuple xs, .tuple ys => List.Forall₂ R xs ys
  | .dict es, .dict es' => List.Forall₂ (fun e e' => R e.1 e'.1 ∧ R e.2 e'.2) es es'
  | .set xs, .set ys => List.Forall₂ R xs ys
  | .frozenset xs, .frozenset ys => List.Forall₂ R xs ys
  | _, _ => False

theorem CellCopy.mono {R S : Value → Value → Prop} {object : Object} {cell : Cell}
    (copy : CellCopy R object cell) (implies : ∀ v w, R v w → S v w) : CellCopy S object cell := by
  cases object <;> cases cell <;> simp only [CellCopy] at copy ⊢
  case dict.dict es es' =>
    exact copy.imp fun e e' related => ⟨implies _ _ related.1, implies _ _ related.2⟩
  all_goals exact copy.imp implies

/-- A value of a memory is a copy of a value of a graph, at most `depth` objects deep.  Objects that
have a place are copied by it, and no other object is copied to such a place. -/
def Copy (graph : Graph) (place : Nat → Option Nat) (heap : Array Cell) (low high : Nat) :
    Nat → Value → Value → Prop
  | _, .scalar s, w => ∃ t, w = .scalar t ∧ s.Matches t ∧ t.FreshIn low high
  | 0, .ref _, _ => False
  | depth + 1, .ref i, w => ∃ j, w = .ref j ∧
      (place i = some j ∨ place i = none ∧ (∀ k, place k ≠ some j) ∧
        ∃ object cell, graph[i]? = some object ∧ heap[j]? = some cell ∧
          CellCopy (Copy graph place heap low high depth) object cell)

section

variable {graph : Graph} {place : Nat → Option Nat} {heap heap' : Array Cell}
variable {low high low' high' : Nat}

theorem Copy.mono (below : low' ≤ low) (above : high ≤ high')
    (kept : ∀ j cell, (∀ k, place k ≠ some j) → heap[j]? = some cell → heap'[j]? = some cell)
    {depth depth' : Nat} (deeper : depth ≤ depth') {v w : Value}
    (copy : Copy graph place heap low high depth v w) :
    Copy graph place heap' low' high' depth' v w := by
  induction depth generalizing depth' v w with
  | zero =>
    cases v with
    | scalar s =>
      obtain ⟨t, rfl, matched, fresh⟩ : ∃ t, w = .scalar t ∧ s.Matches t ∧
        t.FreshIn low high := by simpa only [Copy] using copy
      simp only [Copy]
      exact ⟨t, rfl, matched, fresh.mono below above⟩
    | ref i => simp only [Copy] at copy
  | succ depth ih =>
    cases v with
    | scalar s =>
      obtain ⟨t, rfl, matched, fresh⟩ : ∃ t, w = .scalar t ∧ s.Matches t ∧
        t.FreshIn low high := by simpa only [Copy] using copy
      simp only [Copy]
      exact ⟨t, rfl, matched, fresh.mono below above⟩
    | ref i =>
      obtain ⟨depth', rfl⟩ : ∃ k, depth' = k + 1 := ⟨depth' - 1, by omega⟩
      simp only [Copy] at copy ⊢
      obtain ⟨j, rfl, placed | ⟨free, inner, object, cell, original, found, held⟩⟩ := copy
      · exact ⟨j, rfl, .inl placed⟩
      · exact ⟨j, rfl, .inr ⟨free, inner, object, cell, original, kept j cell inner found,
          held.mono fun x y => ih (by omega)⟩⟩

def PlacesFillable (graph : Graph) (place : Nat → Option Nat) : Prop :=
  ∀ i j, place i = some j → ∃ object, graph[i]? = some object ∧ object.fillable

/-- What a copy of a key looks like: objects that can be keys have no place. -/
theorem Copy.of_hashable (fillable : PlacesFillable graph place)
    {depth : Nat} {v w : Value} (hashable : Hashable graph v)
    (copy : Copy graph place heap low high depth v w) :
    (∃ s t, v = .scalar s ∧ w = .scalar t ∧ s.Matches t ∧ t.FreshIn low high) ∨
    (∃ inner i j xs ys, depth = inner + 1 ∧ v = .ref i ∧ w = .ref j ∧
      (graph[i]? = some (.tuple xs) ∧ heap[j]? = some (.tuple ys) ∨
        graph[i]? = some (.frozenset xs) ∧ heap[j]? = some (.frozenset ys)) ∧
      (∀ x ∈ xs, Hashable graph x) ∧
      List.Forall₂ (Copy graph place heap low high inner) xs ys) := by
  cases hashable with
  | scalar s =>
    obtain ⟨t, rfl, matched, fresh⟩ : ∃ t, w = .scalar t ∧ s.Matches t ∧ t.FreshIn low high := by
      cases depth <;> simpa only [Copy] using copy
    exact .inl ⟨s, t, rfl, rfl, matched, fresh⟩
  | @tuple i items object held =>
    cases depth with
    | zero => simp only [Copy] at copy
    | succ inner =>
      simp only [Copy] at copy
      obtain ⟨j, rfl, placed | ⟨_, _, other, cell, original, found, related⟩⟩ := copy
      · obtain ⟨other, same, isFillable⟩ := fillable i j placed
        rw [object] at same
        cases same
        cases isFillable
      · rw [object] at original
        cases original
        cases cell <;> simp only [CellCopy] at related
        rename_i ys
        exact .inr ⟨inner, i, j, items, ys, rfl, rfl, rfl, .inl ⟨object, found⟩, held, related⟩
  | @frozenset i items object held =>
    cases depth with
    | zero => simp only [Copy] at copy
    | succ inner =>
      simp only [Copy] at copy
      obtain ⟨j, rfl, placed | ⟨_, _, other, cell, original, found, related⟩⟩ := copy
      · obtain ⟨other, same, isFillable⟩ := fillable i j placed
        rw [object] at same
        cases same
        cases isFillable
      · rw [object] at original
        cases original
        cases cell <;> simp only [CellCopy] at related
        rename_i ys
        exact .inr ⟨inner, i, j, items, ys, rfl, rfl, rfl, .inr ⟨object, found⟩, held, related⟩

end

end Sandbox

end MacroExpand
