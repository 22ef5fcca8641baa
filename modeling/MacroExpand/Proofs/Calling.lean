import MacroExpand.Proofs.Evaluating

/-!
# Calling known classes

The built-in names that written values use are classes of scalars and sets.  Calling one of them
gives its arguments to the maker of the class, which reads a number from a text or makes a set of the
elements of another one.
-/

set_option autoImplicit false

namespace MacroExpand

namespace Sandbox

open MacroExpand.Parser (IsConstant IsNegated IsName IsDisplay IsDict IsCall)

variable {m m' : Machine} {frame : Frame} {bindings : List (String × Value)}
variable {place : Nat → Option Nat} {ground : Ground} {graph : Graph}

/-! ## Literals -/

theorem builds_constant {s : Scalar} {tree : Tree} (isConstant : IsConstant s tree)
    (isDefined : s.isDefined = true) (depth : Nat) :
    Builds ground graph place bindings 1 depth (.scalar s) tree := by
  refine ⟨isConstant.quiet, ?_⟩
  obtain ⟨mark, rfl⟩ := isConstant
  intro n enough frame m ready
  obtain ⟨n, rfl⟩ : ∃ k, n = k + 1 := ⟨n - 1, by omega⟩
  refine Gives.pure ⟨Grows.refl m, ?_⟩
  cases depth <;> exact ⟨s, rfl, .refl s, .of_isDefined isDefined⟩

theorem perform_newNumber_defined {s : Scalar} (isDefined : s.isDefined = true) :
    perform m (newNumber s) = (.ok (.scalar s), m) := by
  cases s with
  | float d =>
    have kept : d.isUndefined = false := by simpa [Scalar.isDefined] using isDefined
    simp only [newNumber, kept, Bool.false_eq_true, if_false]
    rfl
  | _ => rfl

theorem perform_unary_minus (standard : Standard m) {s t : Scalar} (r : Interpreter)
    (negated : Arithmetic.unary .minus s = some t) (isDefined : t.isDefined = true) :
    perform m (unary r .minus (.scalar s)) = (.ok (.scalar t), m) := by
  have settled : Settled m (.scalar s) := trivial
  refine (perform_bind (perform_callOwn standard settled r _ _)).trans ?_
  refine (perform_bind (perform_unwrap settled)).trans ?_
  simp only [negated]
  exact perform_newNumber_defined isDefined

theorem builds_negated {s t : Scalar} {tree : Tree} (isNegated : IsNegated s tree)
    (negated : Arithmetic.unary .minus s = some t) (isDefined : t.isDefined = true) (depth : Nat) :
    Builds ground graph place bindings 2 depth (.scalar t) tree := by
  refine ⟨isNegated.quiet, ?_⟩
  obtain ⟨mark, inner, rfl, mark', rfl⟩ := isNegated
  intro n enough frame m ready
  obtain ⟨n, rfl⟩ : ∃ k, n = k + 2 := ⟨n - 2, by omega⟩
  refine Gives.after (perform_pure (Value.scalar s)) ?_
  refine Gives.of_perform (perform_unary_minus ready.standard _ negated isDefined) ⟨Grows.refl m, ?_⟩
  cases depth <;> exact ⟨t, rfl, .refl t, .of_isDefined isDefined⟩

/-! ## Known classes -/

/-- A known class whose values are made by a maker, and no exceptions. -/
structure MadeBy (key : String) (make : Maker) : Prop where
  known : classCell key < classTable.length
  name : plainValue? key = some (classValue key)
  plain : (knownClass classTable[classCell key]).lineage.contains (classCell "BaseException") = false
  other : classCell key ∉ [classCell "type", classCell "super", classCell "function"]
  single : ["NoneType", "ellipsis", "NotImplementedType"].contains
    (knownClass classTable[classCell key]).name = false
  maker : (classKey? (classCell key)).bind maker? = some make

theorem perform_call_class {key : String} {make : Maker} (madeBy : MadeBy key make)
    (standard : Standard m) (r : Interpreter) (a : Arguments) :
    perform m (callStep r (classValue key) a) = perform m (make r a) := by
  have known := madeBy.known
  have found := standard _ (Nat.lt_of_lt_of_le known classTable_le)
  rw [startingHeap_class known] at found
  have other := madeBy.other
  simp only [List.mem_cons, List.not_mem_nil, or_false, not_or] at other
  refine (perform_bind (perform_cellAt_some found)).trans ?_
  simp only [instantiate, madeBy.plain, madeBy.single, madeBy.maker, other.1, other.2.1, other.2.2,
    if_false, Bool.false_eq_true]
  rfl

theorem perform_callHere {i : Nat} {cell : Cell} (found : m.heap[i]? = some cell)
    (other : i ≠ classCell "super") (notNative : ∀ name, cell ≠ .native name) (r : Interpreter)
    (a : Arguments) : perform m (callHere? r frame (.ref i) a) = (.ok none, m) := by
  unfold callHere?
  simp only [other, decide_false, Bool.false_and, Bool.false_eq_true, if_false]
  refine (perform_bind (perform_cellAt_some found)).trans ?_
  cases cell with
  | native name => exact absurd rfl (notNative name)
  | _ => rfl

theorem Row.ready {depth : Nat} {vs ws : List Value} (ready : Ready frame bindings place m)
    (row : Row graph place depth vs m ws m') : Ready frame bindings place m' :=
  ready.grows row.1

section Calls

variable {ι : Type} {value : ι → Value} {fuel depth : Nat}

theorem gives_call {key : String} {make : Maker} (madeBy : MadeBy key make)
    (absent : key ∉ bindings.map Prod.fst) {mark mark' : Mark} {trees : List Tree} {n : Nat}
    (ready : Ready frame bindings place m) {middle : List Value → Machine → Prop}
    (evaluated : Gives m
      (placeArguments (interpreter ground (n + 1)) frame (classValue key) trees) middle)
    {post : Value → Machine → Prop}
    (makes : ∀ ws m', middle ws m' → Standard m' ∧
      Gives m' (make (interpreter ground n) ⟨ws, []⟩) post) :
    Gives m ((interpreter ground (n + 2)).eval frame (.node mark .call
      [[.node mark' (.name (String.ofList key.toList) .load) []], trees, []])) post := by
  have named : perform m ((interpreter ground (n + 1)).eval frame
      (.node mark' (.name (String.ofList key.toList) .load) [])) = (.ok (classValue key), m) := by
    rw [String.ofList_toList]
    exact perform_lookupName_known ready absent madeBy.name
  refine Gives.after named (Gives.bind evaluated ?_)
  intro ws m' holds
  obtain ⟨standard, w, m'', run, result⟩ := makes ws m' holds
  have found := standard _ (Nat.lt_of_lt_of_le madeBy.known classTable_le)
  rw [startingHeap_class madeBy.known] at found
  have other := madeBy.other
  simp only [List.mem_cons, List.not_mem_nil, or_false, not_or] at other
  have elsewhere : perform m' (callHere? (interpreter ground (n + 1)) frame (classValue key)
      ⟨ws, []⟩) = (.ok none, m') :=
    perform_callHere found other.2.1 (by simp) _ _
  refine Gives.after (perform_pure (m := m') ([] : List (String × Value))) (Gives.after elsewhere ?_)
  exact ⟨w, m'', (perform_call_class madeBy standard _ _).trans run, result⟩

theorem gives_call_copies {key : String} {make : Maker} (madeBy : MadeBy key make)
    (absent : key ∉ bindings.map Prod.fst) {items : List ι} {tree : Tree}
    (call : IsCall (IsName key.toList) items
      (fun i tree => Builds ground graph place bindings fuel depth (value i) tree) tree)
    {n : Nat} (enough : fuel ≤ n + 1) (ready : Ready frame bindings place m) {post : Value → Machine → Prop}
    (makes : ∀ ws m', Row graph place depth (items.map value) m ws m' →
      Gives m' (make (interpreter ground n) ⟨ws, []⟩) post) :
    Gives m ((interpreter ground (n + 2)).eval frame tree) post := by
  obtain ⟨mark, inner, trees, rfl, ⟨mark', rfl⟩, each⟩ := call
  refine gives_call madeBy absent ready (gives_arguments each enough ready _) ?_
  intro ws m' row
  exact ⟨(row.ready ready).standard, makes ws m' row⟩

theorem gives_argument {r : Interpreter} {tree : Tree} (unstarred : ∀ c, tree.kind ≠ .starred c)
    {middle : Value → Machine → Prop} (evaluated : Gives m (r.eval frame tree) middle)
    (callee : Value) :
    Gives m (placeArguments r frame callee [tree]) fun ws m' => ∃ w, ws = [w] ∧ middle w m' := by
  unfold placeArguments
  dsimp only
  rw [List.mapM_cons, List.mapM_nil]
  rw [bind_assoc]
  refine Gives.bind (gives_unstarred unstarred evaluated) ?_
  rintro part m' ⟨w, rfl, holds⟩
  exact Gives.pure ⟨w, rfl, holds⟩

end Calls

theorem madeBy_set :
    MadeBy "set" (makeFrom "set" fun r xs => do alloc (.set (← addElements r [] xs))) :=
  ⟨by decide +kernel, by decide +kernel, by decide +kernel, by decide +kernel, by decide +kernel, rfl⟩

theorem madeBy_frozenset :
    MadeBy "frozenset" (makeFrom "frozenset" fun r xs => do
      alloc (.frozenset (← addElements r [] xs))) :=
  ⟨by decide +kernel, by decide +kernel, by decide +kernel, by decide +kernel, by decide +kernel, rfl⟩

theorem madeBy_float : MadeBy "float" makeFloat :=
  ⟨by decide +kernel, by decide +kernel, by decide +kernel, by decide +kernel, by decide +kernel, rfl⟩

theorem madeBy_complex : MadeBy "complex" makeComplex :=
  ⟨by decide +kernel, by decide +kernel, by decide +kernel, by decide +kernel, by decide +kernel, rfl⟩

theorem madeBy_int : MadeBy "int" makeInt :=
  ⟨by decide +kernel, by decide +kernel, by decide +kernel, by decide +kernel, by decide +kernel, rfl⟩

/-! ## Makers -/

theorem perform_onlyPlaces (name : String) {ws : List Value} (few : ws.length ≤ 1) :
    perform m (onlyPlaces name 0 1 ⟨ws, []⟩) = (.ok (), m) := by
  unfold onlyPlaces refuseNames expects
  rw [if_neg (by simp)]
  refine (perform_bind (perform_pure ())).trans ?_
  simp only
  rw [if_neg (by omega)]
  rfl

theorem perform_makeFrom_nothing (name : String) (make : Interpreter → List Value → Eval Value)
    (r : Interpreter) : perform m (makeFrom name make r ⟨[], []⟩) = perform m (make r []) := by
  unfold makeFrom
  exact (perform_bind (perform_onlyPlaces name (by simp : ([] : List Value).length ≤ 1))).trans rfl

theorem perform_iterate {i : Nat} {cell : Cell} {ws : List Value} (r : Interpreter)
    (found : m.heap[i]? = some cell)
    (holds : cell = .list ws ∨ cell = .tuple ws ∨ cell = .set ws ∨ cell = .frozenset ws) :
    perform m (iterate r (.ref i)) = (.ok ws, m) := by
  have contents : perform m (contents? (.ref i)) = (.ok (some ws), m) := by
    refine (perform_bind (perform_cellAt_some found)).trans ?_
    rcases holds with rfl | rfl | rfl | rfl <;> rfl
  unfold iterate
  rw [perform_bind (perform_cell_ref i), found]
  rcases holds with rfl | rfl | rfl | rfl <;> exact (perform_bind contents).trans rfl

theorem perform_makeFrom_set {i : Nat} {ws : List Value} (name : String)
    (found : m.heap[i]? = some (.set ws)) (make : Interpreter → List Value → Eval Value)
    (r : Interpreter) :
    perform m (makeFrom name make r ⟨[.ref i], []⟩) = perform m (make r ws) := by
  unfold makeFrom
  have listed := perform_iterate r found (.inr (.inr (.inl rfl)))
  refine (perform_bind (perform_onlyPlaces name (by simp : [Value.ref i].length ≤ 1))).trans ?_
  refine (perform_bind (perform_cell_ref i)).trans ?_
  rw [found]
  split
  · rename_i impossible
    cases impossible
  · rename_i impossible
    cases impossible
  · exact perform_bind listed

theorem perform_numeral (t : Text) : perform m (numeral? (.scalar (.str t))) = (.ok (some t), m) :=
  rfl

theorem perform_makeFloat {t : Text} {d : Double} (read : Number.readDouble t = some d)
    (r : Interpreter) :
    perform m (makeFloat r ⟨[.scalar (.str t)], []⟩) = perform m (newNumber (.float d)) := by
  have value : perform m (doubleFrom r (.scalar (.str t))) = (.ok d, m) := by
    unfold doubleFrom
    refine (perform_bind (perform_numeral t)).trans ?_
    simp only [read]
    rfl
  unfold makeFloat
  refine (perform_bind (perform_onlyPlaces "float" (by simp : [Value.scalar (.str t)].length ≤ 1))).trans ?_
  exact perform_bind value

theorem perform_makeInt {t : Text} {n : Int} (read : Number.readInt 16 t = some n) (r : Interpreter) :
    perform m (makeInt r ⟨[.scalar (.str t), .scalar (.int 16)], []⟩) = (.ok (ofInt n), m) := by
  have checked : perform m (Parameters.check { names := ["", "base"], unnamed := 1 } "int()"
      ⟨[.scalar (.str t), .scalar (.int 16)], []⟩) = (.ok (), m) := rfl
  unfold makeInt
  refine (perform_bind checked).trans ?_
  have base : perform m (needWhole r (.scalar (.int 16))) = (.ok 16, m) := rfl
  refine (perform_bind base).trans ?_
  refine (perform_bind (perform_numeral t)).trans ?_
  have whole : perform m (readWhole r (.scalar (.str t)) 16 t) = (.ok (ofInt n), m) := by
    unfold readWhole
    have allowed : [2, 4, 8, 16, 32].contains 16 = true := by decide
    simp only [read, allowed, Bool.not_true, Bool.and_false, Bool.false_and, Bool.false_eq_true,
      if_false]
    rfl
  exact whole

theorem perform_makeComplex (d e : Double) (standard : Standard m) (r : Interpreter) :
    perform m (makeComplex r ⟨[.scalar (.float d), .scalar (.float e)], []⟩) =
      (.ok (.scalar (.complex d e)), m) := by
  have checked : perform m (Parameters.check { names := ["real", "imag"] } "complex()"
      ⟨[.scalar (.float d), .scalar (.float e)], []⟩) = (.ok (), m) := rfl
  have noText : ∀ x : Double, perform m (text? (.scalar (.float x))) = (.ok none, m) := fun _ => rfl
  have part : ∀ (where_ : String) (x : Double),
      perform m (complexPart r where_ (.scalar (.float x))) = (.ok (x, .zero), m) := by
    intro where_ x
    have settled : Settled m (.scalar (.float x)) := trivial
    refine (perform_bind (perform_unwrap settled)).trans ?_
    refine (perform_bind (perform_callOwn standard settled r _ _)).trans ?_
    exact (perform_bind (perform_pure (some x))).trans rfl
  unfold makeComplex
  refine (perform_bind checked).trans ?_
  refine (perform_bind (noText d)).trans ?_
  refine (perform_bind (noText e)).trans ?_
  refine (perform_bind (part _ d)).trans ?_
  refine (perform_bind (part _ e)).trans ?_
  rfl

end Sandbox

end MacroExpand
