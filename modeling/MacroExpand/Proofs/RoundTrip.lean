import MacroExpand.Proofs.Assembly
import MacroExpand.Sandbox.Snapshot

/-!
# Written values come back

Evaluating the expression that a plain value is written as gives back the value, as far as any access
path can tell.  The two values are bisimilar: containers of the same kind lead to bisimilar elements,
down to equal scalars, however long a path goes around in cycles.

An object that the walk over a value shares is rebuilt as one object: an access path leads to it in
the value exactly if the path leads to that one object after the value is rebuilt.  An object that the
walk meets once is written where it stands.  If that is in a tuple on a cycle, the tuple is written
twice, and with it the object.
-/

set_option autoImplicit false

namespace MacroExpand

open MacroExpand.Parser MacroExpand.Sandbox

/-! ## Bisimilar values -/

/-- Containers of the same kind with related elements: in order, but for sets in any order. -/
def Object.Alike (R : Value → Value → Prop) : Object → Object → Prop
  | .list xs, .list ys => List.Forall₂ R xs ys
  | .tuple xs, .tuple ys => List.Forall₂ R xs ys
  | .dict es, .dict es' => List.Forall₂ (fun e e' => R e.1 e'.1 ∧ R e.2 e'.2) es es'
  | .set xs, .set ys => ∃ zs, zs.Perm ys ∧ List.Forall₂ R xs zs
  | .frozenset xs, .frozenset ys => ∃ zs, zs.Perm ys ∧ List.Forall₂ R xs zs
  | _, _ => False

def Bisimulation (g h : Graph) (R : Value → Value → Prop) : Prop :=
  ∀ v w, R v w →
    (∃ s t, v = .scalar s ∧ w = .scalar t ∧ s.Matches t) ∨
    ∃ i j object object', v = .ref i ∧ w = .ref j ∧ g[i]? = some object ∧ h[j]? = some object' ∧
      object.Alike R object'

/-- No access path tells the values apart. -/
def Bisimilar (g : Graph) (v : Value) (h : Graph) (w : Value) : Prop :=
  ∃ R, Bisimulation g h R ∧ R v w

/-! ## Evaluation -/

def bareMachine (files : Files) : Machine := { heap := startingHeap.push (.scope {}), files }

def bareFrame : Frame := { scope := startingHeap.size, globals := startingHeap.size }

/-- An interpreter that evaluates expressions nested to a depth, and compares values nested as deep. -/
def evaluator (depth : Nat) : Interpreter :=
  interpreter { prepare := plainModule, compareDepth := depth } depth

/-- Read an expression and evaluate it where only built-in names can be read. -/
def evaluateText (depth : Nat) (files : Files) (text : Text) :
    Except SourceFault (Except Signal Value × Machine) := do
  let tree ← parseExpression text
  return perform (bareMachine files) ((evaluator depth).eval bareFrame tree)

theorem start_bare (files : Files) : Start bareFrame (bareMachine files) := by
  refine ⟨fun i known => ?_, rfl, by simp [bareMachine, bareFrame], rfl, (by decide : 0 < callLimit)⟩
  simp only [bareMachine, Array.getElem?_push]
  rw [if_neg (by omega)]

variable {graph : Graph} {root : Value}

/-! ## Copies are bisimilar -/

theorem objectOf_alike {R : Value → Value → Prop} {heap : Array Cell} {object : Object} {cell : Cell}
    (copy : CellCopy R object cell) : object.Alike R (objectOf heap cell) := by
  cases object <;> cases cell <;> simp only [CellCopy] at copy
  case set.set xs ys => exact ⟨ys, .refl _, copy⟩
  case frozenset.frozenset xs ys => exact ⟨ys, .refl _, copy⟩
  all_goals exact copy

theorem graphOf_eq (heap : Array Cell) : graphOf heap = (heap.toList.map (objectOf heap)).toArray := by
  rw [graphOf, ← Array.toList_map, Array.toArray_toList]

theorem graphOf_found {heap : Array Cell} {j : Nat} {cell : Cell} (found : heap[j]? = some cell) :
    (graphOf heap)[j]? = some (objectOf heap cell) := by
  simp [graphOf, found]

theorem bisimilar_of_rebuilt {base depth : Nat} {shared : List Nat} {w : Value} {m : Machine}
    (rebuilt : Rebuilt graph (placeFrom base shared) depth shared root w m) :
    Bisimilar graph root (graphOf m.heap) w := by
  obtain ⟨filled, whole⟩ := rebuilt
  refine ⟨fun v w => ∃ depth, Copy graph (placeFrom base shared) m.heap 0 m.undefinedCount depth v w,
    ?_, depth, whole⟩
  rintro v w ⟨depth, copy⟩
  cases v with
  | scalar s =>
    obtain ⟨t, rfl, matched, -⟩ := copy_scalar.mp copy
    exact .inl ⟨s, t, rfl, rfl, matched⟩
  | ref i =>
    cases depth with
    | zero => simp only [Copy] at copy
    | succ depth =>
      simp only [Copy] at copy
      obtain ⟨j, rfl, here | ⟨-, -, object, cell, original, found, held⟩⟩ := copy
      · obtain ⟨k, isIndex, -⟩ := Option.map_eq_some_iff.mp here
        obtain ⟨object, j', cell, original, here', found, held⟩ := filled i (mem_of_findIdx isIndex)
        rw [here] at here'
        cases here'
        exact .inr ⟨i, j, object, _, rfl, rfl, original, graphOf_found found,
          objectOf_alike (held.mono fun _ _ copied => ⟨_, copied⟩)⟩
      · exact .inr ⟨i, j, object, _, rfl, rfl, original, graphOf_found found,
          objectOf_alike (held.mono fun _ _ copied => ⟨_, copied⟩)⟩

/-! ## The round trip -/

theorem exists_survey {registry : Registry} {limit : Nat} {text : Text}
    (written : uneval registry limit graph root = .ok text) :
    ∃ s, Survey.scan registry limit [] { graph } root = .ok s ∧ s.expression limit root = .ok text := by
  unfold uneval at written
  split at written
  · cases written
  · rename_i s scanned
    exact ⟨s, scanned, written⟩

theorem evaluates_rebuilt (registry : Registry) (files : Files) {limit depth : Nat} {text : Text}
    (plain : PlainFrom graph root) (written : uneval registry limit graph root = .ok text)
    (fits : NestingFits text) (enough : 2 * limit + 12 ≤ depth) :
    ∃ s, Survey.scan registry limit [] { graph } root = .ok s ∧
      ∃ w m, evaluateText depth files text = .ok (.ok w, m) ∧
        Rebuilt graph (placeFrom (startingHeap.size + 3) s.shared) limit s.shared root w m := by
  obtain ⟨s, scanned, whole⟩ := exists_survey written
  obtain ⟨rfl, surveyed⟩ := surveyed_of_scan plain scanned
  refine ⟨s, scanned, ?_⟩
  obtain ⟨lexemes, isWritten⟩ : ∃ lexemes, Written text lexemes
      (Rebuilds { prepare := plainModule, compareDepth := depth } s.graph (startingHeap.size + 3)
        s.shared (2 * limit + 12) limit root) :=
    written_expression surveyed (show limit < depth by omega) _ whole
  obtain ⟨tree, parsed, rebuilds⟩ := isWritten.parse fits
  have size : (bareMachine files).heap.size + 2 = startingHeap.size + 3 := by simp [bareMachine]
  obtain ⟨w, m, run, rebuilt⟩ := rebuilds depth enough bareFrame (bareMachine files)
    (start_bare files) size
  refine ⟨w, m, ?_, rebuilt⟩
  rw [evaluateText, parsed]
  exact congrArg Except.ok run

/-- A plain value that is written as an expression comes back when the expression is evaluated, however
deep the value may be nested.  Evaluating goes at most two calls deeper for a level of the value. -/
theorem uneval_round_trip (registry : Registry) (files : Files) {limit depth : Nat} {text : Text}
    (plain : PlainFrom graph root) (written : uneval registry limit graph root = .ok text)
    (fits : NestingFits text) (enough : 2 * limit + 12 ≤ depth) :
    ∃ w m, evaluateText depth files text = .ok (.ok w, m) ∧
      Bisimilar graph root (graphOf m.heap) w := by
  obtain ⟨s, -, w, m, run, rebuilt⟩ := evaluates_rebuilt registry files plain written fits enough
  exact ⟨w, m, run, bisimilar_of_rebuilt rebuilt⟩

/-! ## A value on a cycle -/

theorem PlainFrom.of_closed (closed : List Value) (inside : root ∈ closed)
    (plain : ∀ v ∈ closed, v.Plain graph)
    (steps : ∀ i object, .ref i ∈ closed → graph[i]? = some object →
      ∀ v ∈ object.elements, v ∈ closed) :
    PlainFrom graph root := by
  intro v reached
  have member : v ∈ closed := by
    induction reached with
    | root => exact inside
    | element _ found held ih => exact steps _ _ ih found _ held
  exact plain v member

/-- A list that holds itself in a tuple and in a dictionary. -/
def knot : Graph := #[
  .list [.ref 1, .scalar (.float ⟨0x3FF8000000000000⟩), .ref 2],
  .tuple [.ref 0, .scalar .nil],
  .dict [(.scalar (.str ['k']), .ref 0), (.scalar (.int 2), .ref 3)],
  .set [.scalar (.float .undefined), .ref 4],
  .tuple [.scalar (.bool true)]]

/-- What it is written as. -/
def knotText : Text := chars ("(lambda _0: (_0.extend([(_0, None), 1.5, \x7b'k': _0, " ++
  "2: \x7bfloat('nan'), (True,)\x7d\x7d]), _0)[-1])([])")

def knotValues : List Value := [.ref 0, .ref 1, .ref 2, .ref 3, .ref 4, .scalar .nil,
  .scalar (.float ⟨0x3FF8000000000000⟩), .scalar (.str ['k']), .scalar (.int 2),
  .scalar (.float .undefined), .scalar (.bool true)]

theorem plain_knot : ∀ v ∈ knotValues, v.Plain knot := by
  have readsBack : Double.ReadsBack ⟨0x3FF8000000000000⟩ := fun _ _ _ => by decide +kernel
  have noNumber : Double.ReadsBack .undefined := fun _ _ finite => by
    have isUndefined : Double.undefined.kind = .undefined := by decide
    rw [isUndefined] at finite
    cases finite
  have tuple : Hashable knot (.ref 4) := .tuple rfl (by simp [Hashable.scalar])
  have dict : DistinctKeys knot [.scalar (.str ['k']), .scalar (.int 2)] :=
    ⟨by simp [Hashable.scalar], List.pairwise_pair.mpr fun depth => by cases depth <;> rfl⟩
  have set : DistinctKeys knot [.scalar (.float .undefined), .ref 4] :=
    ⟨by simp [Hashable.scalar, tuple], List.pairwise_pair.mpr fun depth => by cases depth <;> rfl⟩
  intro v member
  simp only [knotValues, List.mem_cons, List.not_mem_nil, or_false] at member
  rcases member with rfl | rfl | rfl | rfl | rfl | rfl | rfl | rfl | rfl | rfl | rfl
  · exact ⟨_, rfl, trivial⟩
  · exact ⟨_, rfl, trivial⟩
  · exact ⟨_, rfl, dict⟩
  · exact ⟨_, rfl, set⟩
  · exact ⟨_, rfl, trivial⟩
  all_goals trivial

theorem plainFrom_knot : PlainFrom knot (.ref 0) := by
  have steps : ∀ i : Fin 5, ∀ v ∈ knot[i].elements, v ∈ knotValues := by decide
  refine PlainFrom.of_closed knotValues (by simp [knotValues]) plain_knot ?_
  intro i object _ found
  obtain ⟨below, rfl⟩ := Array.getElem?_eq_some_iff.mp found
  exact steps ⟨i, below⟩

theorem knot_written : uneval Registry.standard nestingLimit knot (.ref 0) = .ok knotText ∧
    (Lexer.run {} knotText).stopped = none := by
  rw [show knotText = _ from chars_append _ _]
  constructor <;> decide +kernel

theorem knot_round_trip : uneval Registry.standard nestingLimit knot (.ref 0) = .ok knotText ∧
    ∃ w m, evaluateText (2 * nestingLimit + 12) default knotText = .ok (.ok w, m) ∧
      Bisimilar knot (.ref 0) (graphOf m.heap) w := by
  obtain ⟨written, stopped⟩ := knot_written
  have fits : NestingFits knotText := by
    intro fault member
    rw [stopped] at member
    cases member
  exact ⟨written, uneval_round_trip _ _ plainFrom_knot written fits (Nat.le_refl _)⟩

/-! ## Access paths -/

/-- Where an access path leads to, which names the element to go into by its position. -/
def Graph.follow (graph : Graph) : Value → List Nat → Option Value
  | v, [] => some v
  | .ref i, k :: path => do
      let object ← graph[i]?
      let v ← object.elements[k]?
      follow graph v path
  | .scalar _, _ :: _ => none

theorem forall₂_getElem? {α β : Type} {R : α → β → Prop} {xs : List α} {ys : List β}
    (related : List.Forall₂ R xs ys) (k : Nat) : Option.Rel R xs[k]? ys[k]? := by
  induction related generalizing k with
  | nil => exact .none
  | cons here _ ih =>
    cases k with
    | zero => exact .some here
    | succ k => exact ih k

theorem elements_copied {R : Value → Value → Prop} {heap : Array Cell} {object : Object} {cell : Cell}
    (copy : CellCopy R object cell) : List.Forall₂ R object.elements (objectOf heap cell).elements := by
  cases object <;> cases cell <;> simp only [CellCopy] at copy
  case dict.dict es es' =>
    simp only [objectOf, Object.elements]
    induction copy with
    | nil => exact .nil
    | cons here _ ih => exact .cons here.1 (.cons here.2 ih)
  all_goals exact copy

/-! ## Rebuilt objects -/

def Copied (graph : Graph) (base : Nat) (shared : List Nat) (m : Machine) (v w : Value) : Prop :=
  ∃ depth, Copy graph (placeFrom base shared) m.heap 0 m.undefinedCount depth v w

section Rebuilt

variable {base depth : Nat} {shared : List Nat} {w : Value} {m : Machine}

theorem Copied.cell (filled : ∀ i ∈ shared, HoldsCopy graph (placeFrom base shared) depth m i) {i : Nat}
    (copied : Copied graph base shared m (.ref i) w) :
    ∃ j object cell, w = .ref j ∧ graph[i]? = some object ∧ m.heap[j]? = some cell ∧
      CellCopy (Copied graph base shared m) object cell := by
  obtain ⟨_ | depth', copy⟩ := copied
  · simp only [Copy] at copy
  · simp only [Copy] at copy
    obtain ⟨j, rfl, here | ⟨-, -, object, cell, original, found, held⟩⟩ := copy
    · obtain ⟨k, isIndex, -⟩ := Option.map_eq_some_iff.mp here
      obtain ⟨object, j', cell, original, here', found, held⟩ := filled i (mem_of_findIdx isIndex)
      cases here.symm.trans here'
      exact ⟨j, object, cell, rfl, original, found, held.mono fun _ _ copy => ⟨_, copy⟩⟩
    · exact ⟨j, object, cell, rfl, original, found, held.mono fun _ _ copy => ⟨_, copy⟩⟩

theorem Copied.follow (filled : ∀ i ∈ shared, HoldsCopy graph (placeFrom base shared) depth m i)
    {v : Value} (copied : Copied graph base shared m v w) (path : List Nat) :
    Option.Rel (Copied graph base shared m) (graph.follow v path) ((graphOf m.heap).follow w path) := by
  induction path generalizing v w with
  | nil => exact .some copied
  | cons k path ih =>
    cases v with
    | scalar s =>
      obtain ⟨_, copy⟩ := copied
      obtain ⟨t, rfl, -⟩ := copy_scalar.mp copy
      exact .none
    | ref i =>
      obtain ⟨j, object, cell, rfl, original, found, held⟩ := copied.cell filled
      have elements : Option.Rel (Copied graph base shared m) object.elements[k]?
          (objectOf m.heap cell).elements[k]? := forall₂_getElem? (elements_copied held) k
      have start : graph.follow (.ref i) (k :: path) =
          object.elements[k]?.bind fun v => graph.follow v path := by
        simp [Graph.follow, original]
      have start' : (graphOf m.heap).follow (.ref j) (k :: path) =
          (objectOf m.heap cell).elements[k]?.bind fun w => (graphOf m.heap).follow w path := by
        simp [Graph.follow, graphOf_found found]
      rw [start, start']
      generalize object.elements[k]? = next, (objectOf m.heap cell).elements[k]? = next' at elements
      cases elements with
      | none => exact .none
      | some next => exact ih next

theorem Copied.in_place {i j : Nat} (here : placeFrom base shared i = some j) {v : Value}
    (copied : Copied graph base shared m v w) : v = .ref i ↔ w = .ref j := by
  obtain ⟨depth', copy⟩ := copied
  cases v with
  | scalar s =>
    obtain ⟨t, rfl, -⟩ := copy_scalar.mp copy
    simp
  | ref i' =>
    cases depth' with
    | zero => simp only [Copy] at copy
    | succ depth' =>
      simp only [Copy] at copy
      obtain ⟨j', rfl, there | ⟨unshared, elsewhere, -⟩⟩ := copy
      · constructor
        · rintro ⟨⟩
          cases here.symm.trans there
          rfl
        · rintro ⟨⟩
          rw [placeFrom_injective here there]
      · constructor
        · rintro ⟨⟩
          cases here.symm.trans unshared
        · rintro ⟨⟩
          exact absurd here (elsewhere i)

end Rebuilt

/-- A shared object of a written value is one object again when the value is rebuilt: the access paths
that lead to the one are those that lead to the other. -/
theorem shared_rebuilt_once (registry : Registry) (files : Files) {limit depth : Nat} {text : Text}
    (plain : PlainFrom graph root) (written : uneval registry limit graph root = .ok text)
    (fits : NestingFits text) (enough : 2 * limit + 12 ≤ depth) :
    ∃ s w m, Survey.scan registry limit [] { graph } root = .ok s ∧
      evaluateText depth files text = .ok (.ok w, m) ∧
      ∀ i ∈ s.shared, ∃ j, ∀ path, graph.follow root path = some (.ref i) ↔
        (graphOf m.heap).follow w path = some (.ref j) := by
  obtain ⟨s, scanned, w, m, run, filled, whole⟩ := evaluates_rebuilt registry files plain written fits enough
  refine ⟨s, w, m, scanned, run, fun i isShared => ?_⟩
  obtain ⟨-, j, -, -, here, -⟩ := filled i isShared
  refine ⟨j, fun path => ?_⟩
  have copied : Copied graph (startingHeap.size + 3) s.shared m root w := ⟨_, whole⟩
  have related := copied.follow filled path
  generalize graph.follow root path = found, (graphOf m.heap).follow w path = found' at related
  cases related with
  | none => simp
  | some related => simpa using related.in_place here

/-! ## A tuple on a cycle -/

/-- A tuple of two lists, the first of which holds the tuple. -/
def tied : Graph := #[.tuple [.ref 1, .ref 2], .list [.ref 0], .list []]

/-- What it is written as. -/
def tiedText : Text := chars "(lambda _0: (_0.extend([(_0, [])]), (_0, []))[-1])([])"

/-- The text is what the value is written as, and the lexer reads it to its end; the list that holds the
tuple is shared, and the two paths to the other list lead to two lists once the text is evaluated. -/
theorem tied_written : uneval Registry.standard nestingLimit tied (.ref 0) = .ok tiedText ∧
    (Lexer.run {} tiedText).stopped = none ∧
    (Survey.scan Registry.standard nestingLimit [] { graph := tied } (.ref 0)).toOption.map Survey.shared = some [1] ∧
    ((evaluateText (2 * nestingLimit + 12) default tiedText).toOption.bind fun ended => ended.1.toOption.map fun w =>
      decide ((graphOf ended.2.heap).follow w [1] ≠ (graphOf ended.2.heap).follow w [0, 0, 1])) = some true := by
  rw [show tiedText = _ from chars_ofList _]
  simp only [graphOf_eq]
  refine ⟨?_, ?_, ?_, ?_⟩ <;> decide +kernel

theorem plainFrom_tied : PlainFrom tied (.ref 0) := by
  have steps : ∀ i : Fin 3, ∀ v ∈ tied[i].elements, v ∈ [Value.ref 0, .ref 1, .ref 2] := by decide
  refine PlainFrom.of_closed [.ref 0, .ref 1, .ref 2] (by simp) ?_ ?_
  · intro v member
    simp only [List.mem_cons, List.not_mem_nil, or_false] at member
    rcases member with rfl | rfl | rfl <;> exact ⟨_, rfl, trivial⟩
  · intro i object _ found
    obtain ⟨below, rfl⟩ := Array.getElem?_eq_some_iff.mp found
    exact steps ⟨i, below⟩

theorem fits_tied : NestingFits tiedText := by
  intro fault member
  rw [tied_written.2.1] at member
  cases member

/-- The list that holds the tuple is shared and stays one list. -/
theorem tied_rebuilt_once : ∃ s w m, Survey.scan Registry.standard nestingLimit [] { graph := tied }
      (.ref 0) = .ok s ∧ evaluateText (2 * nestingLimit + 12) default tiedText = .ok (.ok w, m) ∧ s.shared = [1] ∧
    ∃ j, ∀ path, tied.follow (.ref 0) path = some (.ref 1) ↔
      (graphOf m.heap).follow w path = some (.ref j) := by
  obtain ⟨written, -, shares, -⟩ := tied_written
  obtain ⟨s, w, m, scanned, run, once⟩ := shared_rebuilt_once Registry.standard default plainFrom_tied written
    fits_tied (Nat.le_refl _)
  rw [scanned] at shares
  have shares : s.shared = [1] := by simpa [Except.toOption] using shares
  exact ⟨s, w, m, scanned, run, shares, once 1 (by simp [shares])⟩

/-- The other list is not shared: two paths lead to it, but to different lists afterwards. -/
theorem tied_list_doubled : PlainFrom tied (.ref 0) ∧
    uneval Registry.standard nestingLimit tied (.ref 0) = .ok tiedText ∧
    tied[2]? = some (.list []) ∧ tied.follow (.ref 0) [1] = some (.ref 2) ∧
    tied.follow (.ref 0) [0, 0, 1] = some (.ref 2) ∧
    ∃ w m, evaluateText (2 * nestingLimit + 12) default tiedText = .ok (.ok w, m) ∧
      (graphOf m.heap).follow w [1] ≠ (graphOf m.heap).follow w [0, 0, 1] := by
  obtain ⟨written, -, -, differs⟩ := tied_written
  refine ⟨plainFrom_tied, written, rfl, rfl, rfl, ?_⟩
  obtain ⟨s, -, w, m, run, -⟩ := evaluates_rebuilt Registry.standard default plainFrom_tied written fits_tied
    (Nat.le_refl _)
  refine ⟨w, m, run, ?_⟩
  rw [run] at differs
  simpa [Except.toOption] using differs

end MacroExpand
