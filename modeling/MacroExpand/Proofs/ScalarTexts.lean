import MacroExpand.Proofs.Calling

/-!
# Scalars as expressions

The text of a scalar is an expression that makes a copy of it: a literal, a literal with a sign, or a
call of a built-in name where there is no literal.  The digits of a finite double are taken to read
back as the double.
-/

set_option autoImplicit false

namespace MacroExpand

open MacroExpand.Parser MacroExpand.Sandbox

/-! ## Built-in names -/

def calledNames : List String := ["set", "frozenset", "float", "complex", "int"]

theorem calledName_forms {name : String} (called : name ∈ calledNames) :
    WordForm name.toList ∧ PlainWord name.toList := by
  simp only [calledNames, List.mem_cons, List.not_mem_nil, or_false] at called
  rcases called with rfl | rfl | rfl | rfl | rfl <;>
    exact ⟨wordForm_of_decide (by decide +kernel) (by decide +kernel) (by decide +kernel)
      (by decide +kernel), .of_ascii (by decide +kernel) (by decide +kernel)⟩

/-! ## Doubles -/

namespace Double

def ReadsBack (d : Double) : Prop :=
  ∀ m q, d.kind = .finite m q → Number.value d.body = .float (if d.negative then d.neg else d)

theorem neg_neg (d : Double) : d.neg.neg = d := by
  obtain ⟨w | number⟩ := d
  · simp only [neg, UInt64.xor_assoc, UInt64.xor_self, UInt64.xor_zero]
  · rfl

theorem defined_of_finite {d : Double} {m : Nat} {q : Int} (finite : d.kind = .finite m q) :
    d.isUndefined = false := by
  simp [isUndefined, finite]

theorem eq_infinity {d : Double} (infinite : d.kind = .infinite) :
    d = if d.negative then infinity.neg else infinity := by
  obtain ⟨w | number⟩ := d
  · have small := w.toNat_lt
    have bits : w.toNat = 0x7FF0000000000000 ∨ w.toNat = 0xFFF0000000000000 := by
      unfold kind word at infinite
      simp only at infinite
      split_ifs at infinite; omega
    rcases bits with low | high
    · rw [show w = 0x7FF0000000000000 from UInt64.toNat_inj.mp low]
      decide
    · rw [show w = 0xFFF0000000000000 from UInt64.toNat_inj.mp high]
      decide
  · exact absurd infinite (by decide : undefined.kind ≠ .infinite)

end Double

def Scalar.ReadsBack : Scalar → Prop
  | .float d => d.ReadsBack
  | .complex re im => re.ReadsBack ∧ im.ReadsBack
  | _ => True

namespace Sandbox

variable {m m' : Machine} {frame : Frame} {bindings : List (String × Value)}
variable {place : Nat → Option Nat} {ground : Ground} {graph : Graph}

theorem Builds.weaken {fuel fuel' depth depth' : Nat} {v : Value} {tree : Tree}
    (builds : Builds ground graph place bindings fuel depth v tree) (longer : fuel ≤ fuel')
    (deeper : depth ≤ depth') : Builds ground graph place bindings fuel' depth' v tree := by
  refine ⟨builds.quiet, ?_⟩
  intro n enough frame m ready
  refine (builds.gives n (by omega) frame m ready).weaken ?_
  rintro w m' ⟨grows, copy⟩
  exact ⟨grows, copy.mono (Nat.le_refl _) (Nat.le_refl _) (fun _ _ _ => id) deeper⟩

theorem copy_scalar {heap : Array Cell} {low high depth : Nat} {s : Scalar} {w : Value} :
    Copy graph place heap low high depth (.scalar s) w ↔
      ∃ t, w = .scalar t ∧ s.Matches t ∧ t.FreshIn low high := by
  cases depth <;> simp only [Copy]

def CallsFree (bindings : List (String × Value)) : Prop :=
  ∀ name ∈ calledNames, name ∉ bindings.map Prod.fst

theorem perform_newNumber_undefined {d : Double} (isUndefined : d.isUndefined = true) :
    perform m (newNumber (.float d)) =
      (.ok (ofFloat (Double.undefined.distinct (m.undefinedCount + 1))),
        { m with undefinedCount := m.undefinedCount + 1 }) := by
  rw [← Double.distinct_of_isUndefined isUndefined]
  unfold newNumber
  simp only [isUndefined, if_true]
  rfl

theorem Row.single {depth : Nat} {v : Value} {ws : List Value}
    (row : Row graph place depth [v] m ws m') :
    ∃ w, ws = [w] ∧ Copy graph place m'.heap m.undefinedCount m'.undefinedCount depth v w := by
  have related := row.2.forall₂
  cases related with
  | cons copy rest =>
    cases rest
    exact ⟨_, rfl, copy⟩

theorem Row.pair {depth : Nat} {v u : Value} {ws : List Value}
    (row : Row graph place depth [v, u] m ws m') :
    ∃ w x, ws = [w, x] ∧ Copy graph place m'.heap m.undefinedCount m'.undefinedCount depth v w ∧
      Copy graph place m'.heap m.undefinedCount m'.undefinedCount depth u x := by
  have related := row.2.forall₂
  cases related with
  | cons copy rest =>
    cases rest with
    | cons copy' rest =>
      cases rest
      exact ⟨_, _, rfl, copy, copy'⟩

theorem builds_float_call (free : CallsFree bindings) {text : Text} {d read : Double} {tree : Tree}
    (reads : Number.readDouble text = some read)
    (same : d.isUndefined = true ∧ read.isUndefined = true ∨ d = read ∧ d.isUndefined = false)
    {depth : Nat}
    (call : IsCall (IsName "float".toList) [()]
      (fun _ => Builds ground graph place bindings 1 depth (.scalar (.str text))) tree) :
    Builds ground graph place bindings 3 depth (.scalar (.float d)) tree := by
  refine ⟨call.quiet (fun _ isName => isName.quiet) (fun _ _ builds => builds.quiet), ?_⟩
  intro n enough frame m ready
  obtain ⟨n, rfl⟩ : ∃ k, n = k + 2 := ⟨n - 2, by omega⟩
  refine gives_call_copies madeBy_float (free _ (by decide)) call (by omega) ready fun ws m' row => ?_
  obtain ⟨w, rfl, copy⟩ := row.single
  obtain ⟨t, rfl, matched, _⟩ := copy_scalar.mp copy
  cases t <;> cases matched
  obtain ⟨grows, _⟩ := row
  have made := perform_makeFloat (m := m') reads (interpreter ground n)
  rcases same with ⟨isUndefined, isUndefined'⟩ | ⟨rfl, isDefined⟩
  · rw [perform_newNumber_undefined isUndefined'] at made
    have counted : Grows m' { m' with undefinedCount := m'.undefinedCount + 1 } :=
      ⟨Nat.le_refl _, fun _ _ => rfl, rfl, Nat.le_succ _⟩
    refine Gives.of_perform made ⟨grows.trans counted, copy_scalar.mpr ⟨_, rfl, ?_, ?_⟩⟩
    · exact .inr ⟨isUndefined, Double.distinct_isUndefined _⟩
    · exact fun _ => ⟨_, Nat.lt_succ_of_le grows.count, Nat.le_refl _, rfl⟩
  · have kept : (Scalar.float d).isDefined = true := by simpa [Scalar.isDefined] using isDefined
    rw [perform_newNumber_defined kept] at made
    exact Gives.of_perform made ⟨grows, copy_scalar.mpr ⟨_, rfl, .refl _, .of_isDefined kept⟩⟩

theorem written_float_call (ground : Ground) (graph : Graph)
    (place : Nat → Option Nat) (free : CallsFree bindings) {text : Text} {d read : Double}
    (reads : Number.readDouble text = some read)
    (same : d.isUndefined = true ∧ read.isUndefined = true ∨ d = read ∧ d.isUndefined = false)
    (depth : Nat) :
    ∃ lexemes, Written (chars "float" ++ MacroExpand.callText [Text.quoted text]) lexemes
      (Builds ground graph place bindings 3 depth (.scalar (.float d))) := by
  obtain ⟨form, plain⟩ := calledName_forms (by decide : "float" ∈ calledNames)
  have written := written_call form plain [()] fun _ _ => (written_text text).weaken
    fun tree isConstant => (builds_constant isConstant rfl depth :
      Builds ground graph place bindings 1 depth (.scalar (.str text)) tree)
  exact ⟨_, written.weaken fun tree call => builds_float_call free reads same call⟩

theorem written_float (free : CallsFree bindings) {d : Double} (readsBack : d.ReadsBack)
    (depth : Nat) :
    ∃ lexemes, Written (Scalar.text.floatText d) lexemes
      (Builds ground graph place bindings 3 depth
        (.scalar (.float d))) := by
  unfold Scalar.text.floatText
  cases kind : d.kind with
  | undefined =>
    have isUndefined : d.isUndefined = true := by simp [Double.isUndefined, kind]
    have reads : Number.readDouble (chars "nan") = some Double.undefined := by decide +kernel
    exact written_float_call ground graph place free reads (.inl ⟨isUndefined, by decide⟩) depth
  | infinite =>
    have isDefined : d.isUndefined = false := by simp [Double.isUndefined, kind]
    have form := Double.eq_infinity kind
    cases sign : d.negative with
    | true =>
      rw [sign, if_pos rfl] at form
      have reads : Number.readDouble (chars "-inf") = some Double.infinity.neg := by
        decide +kernel
      exact written_float_call ground graph place free reads (.inr ⟨form, isDefined⟩) depth
    | false =>
      rw [sign, if_neg (by simp)] at form
      have reads : Number.readDouble (chars "inf") = some Double.infinity := by decide +kernel
      exact written_float_call ground graph place free reads (.inr ⟨form, isDefined⟩) depth
  | finite significand exponent =>
    obtain ⟨form, text⟩ := text_finite d significand exponent kind
    have isDefined := Double.defined_of_finite kind
    have reads := readsBack significand exponent kind
    obtain ⟨written, negated⟩ := written_double form reads
    simp only [text]
    cases sign : d.negative with
    | true =>
      simp only [sign, if_true] at negated ⊢
      refine ⟨_, negated.weaken fun tree isNegated => ?_⟩
      have back : Arithmetic.unary .minus (.float d.neg) = some (.float d) := by
        simp only [Arithmetic.unary, Double.neg_neg]
      exact (builds_negated isNegated back (by simpa [Scalar.isDefined] using isDefined)
        depth).weaken (by omega) (Nat.le_refl _)
    | false =>
      simp only [sign, Bool.false_eq_true, if_false] at written ⊢
      refine ⟨_, written.weaken fun tree isConstant => ?_⟩
      exact (builds_constant isConstant (by simpa [Scalar.isDefined] using isDefined)
        depth).weaken (by omega) (Nat.le_refl _)

/-! ## All scalars -/

/-- The text of a part of an expression with its tokens and the value that it makes a copy of. -/
structure Part where
  text : Text
  lexemes : List Lexeme
  value : Value

def Part.Builds (ground : Ground) (graph : Graph) (place : Nat → Option Nat)
    (bindings : List (String × Value)) (fuel depth : Nat) (part : Part) (tree : Tree) : Prop :=
  Sandbox.Builds ground graph place bindings fuel depth part.value tree

theorem builds_int_call (free : CallsFree bindings) {text base : Part} {hex : Text} {n : Int}
    {tree : Tree} (isText : text.value = .scalar (.str hex)) (isBase : base.value = .scalar (.int 16))
    (reads : Number.readInt 16 hex = some n) {fuel depth : Nat}
    (call : IsCall (IsName "int".toList) [text, base]
      (Part.Builds ground graph place bindings fuel depth) tree) :
    Builds ground graph place bindings (max (fuel + 1) 2) depth
      (.scalar (.int n)) tree := by
  refine ⟨call.quiet (fun _ isName => isName.quiet) (fun _ _ builds => builds.quiet), ?_⟩
  intro k enough frame m ready
  obtain ⟨k, rfl⟩ : ∃ l, k = l + 2 := ⟨k - 2, by omega⟩
  refine gives_call_copies madeBy_int (free _ (by decide)) call (by omega) ready fun ws m' row => ?_
  simp only [List.map_cons, List.map_nil, isText, isBase] at row
  obtain ⟨w, x, rfl, copy, copy'⟩ := row.pair
  obtain ⟨t, rfl, matched, _⟩ := copy_scalar.mp copy
  obtain ⟨u, rfl, matched', _⟩ := copy_scalar.mp copy'
  cases t <;> cases matched
  cases u <;> cases matched'
  obtain ⟨grows, _⟩ := row
  refine Gives.of_perform (perform_makeInt reads _) ⟨grows, ?_⟩
  exact copy_scalar.mpr ⟨_, rfl, .refl _, trivial⟩

theorem builds_complex_call (free : CallsFree bindings) {real imag : Part} {re im : Double}
    {tree : Tree} (isReal : real.value = .scalar (.float re))
    (isImag : imag.value = .scalar (.float im)) {fuel depth : Nat}
    (call : IsCall (IsName "complex".toList) [real, imag]
      (Part.Builds ground graph place bindings fuel depth) tree) :
    Builds ground graph place bindings (max (fuel + 1) 2) depth
      (.scalar (.complex re im)) tree := by
  refine ⟨call.quiet (fun _ isName => isName.quiet) (fun _ _ builds => builds.quiet), ?_⟩
  intro k enough frame m ready
  obtain ⟨k, rfl⟩ : ∃ l, k = l + 2 := ⟨k - 2, by omega⟩
  refine gives_call_copies madeBy_complex (free _ (by decide)) call (by omega) ready fun ws m' row => ?_
  simp only [List.map_cons, List.map_nil, isReal, isImag] at row
  obtain ⟨w, x, rfl, copy, copy'⟩ := row.pair
  obtain ⟨t, rfl, matched, fresh⟩ := copy_scalar.mp copy
  obtain ⟨u, rfl, matched', fresh'⟩ := copy_scalar.mp copy'
  cases t <;> simp only [Scalar.Matches, reduceCtorEq] at matched
  cases u <;> simp only [Scalar.Matches, reduceCtorEq] at matched'
  have standard := (row.ready ready).standard
  obtain ⟨grows, _⟩ := row
  refine Gives.of_perform (perform_makeComplex _ _ standard _) ⟨grows, ?_⟩
  exact copy_scalar.mpr ⟨_, rfl, ⟨matched, matched'⟩, fresh, fresh'⟩

theorem commaList_pair (first second : Text) :
    MacroExpand.commaList [first, second] = first ++ chars ", " ++ second := by
  rw [commaList_cons]
  simp [MacroExpand.commaList, Text.joinWith, chars]

theorem written_constant {text : Text} {lexemes : List Lexeme} {s : Scalar}
    (written : Written text lexemes (IsConstant s)) (isDefined : s.isDefined = true) (depth : Nat) :
    ∃ lexemes, Written text lexemes
      (Builds ground graph place bindings 4 depth (.scalar s)) :=
  ⟨lexemes, written.weaken fun _ isConstant => (builds_constant isConstant isDefined depth).weaken
    (by omega) (Nat.le_refl _)⟩

theorem int_text (n : Int) : (Scalar.int n).text = if n.natAbs < 10 ^ 1000 then intText n
    else chars "int(" ++ Text.quoted (hexText n) ++ chars ", 16)" := rfl

theorem complex_text (re im : Double) : (Scalar.complex re im).text =
    chars "complex(" ++ Scalar.text.floatText re ++ chars ", " ++ Scalar.text.floatText im ++
      [')'] := rfl

theorem written_small_int {n : Int} (small : n.natAbs < 10 ^ 1000) (depth : Nat) :
    ∃ lexemes, Written (intText n) lexemes
      (Builds ground graph place bindings 4 depth (.scalar (.int n))) := by
  obtain ⟨written, negated⟩ := written_decimal n.natAbs small
  clear small
  unfold intText
  by_cases negative : n < 0
  · rw [if_pos negative]
    have back : Arithmetic.unary .minus (.int n.natAbs) = some (.int n) := by
      simp only [Arithmetic.unary, Arithmetic.int?, Option.map_some, Option.some.injEq,
        Scalar.int.injEq]
      omega
    exact ⟨_, negated.weaken fun tree isNegated => (builds_negated isNegated back rfl depth).weaken
      (by omega) (Nat.le_refl _)⟩
  · rw [if_neg negative]
    have same : (n.natAbs : Int) = n := by omega
    rw [same] at written
    exact written_constant written rfl depth

theorem written_huge_int (free : CallsFree bindings) (n : Int) (depth : Nat) :
    ∃ lexemes, Written (chars "int(" ++ Text.quoted (hexText n) ++ chars ", 16)") lexemes
      (Builds ground graph place bindings 4 depth
        (.scalar (.int n))) := by
  let text : Part := ⟨Text.quoted (hexText n), [(.string, Text.quoted (hexText n))],
    .scalar (.str (hexText n))⟩
  let base : Part := ⟨decimalDigits 16, [(.number, decimalDigits 16)], .scalar (.int 16)⟩
  have each : ∀ part ∈ [text, base], Written part.text part.lexemes
      (Part.Builds ground graph place bindings 1 depth part) := by
    intro part inside
    simp only [List.mem_cons, List.not_mem_nil, or_false] at inside
    rcases inside with rfl | rfl
    · exact (written_text (hexText n)).weaken fun tree isConstant =>
        builds_constant isConstant rfl depth
    · exact (written_decimal 16 (by decide +kernel)).1.weaken fun tree isConstant =>
        builds_constant isConstant rfl depth
  obtain ⟨form, plain⟩ := calledName_forms (by decide : "int" ∈ calledNames)
  have written := written_call form plain [text, base] each
  have sixteen : decimalDigits 16 = chars "16" := by decide
  have shape : chars "int(" ++ Text.quoted (hexText n) ++ chars ", 16)" =
      "int".toList ++ MacroExpand.callText ([text, base].map Part.text) := by
    simp only [List.map_cons, List.map_nil, MacroExpand.callText, commaList_pair, text, base, sixteen]
    simp [chars]
  rw [shape]
  exact ⟨_, written.weaken fun tree call => (builds_int_call free rfl rfl (readInt_hexText n)
    call).weaken (by omega) (Nat.le_refl _)⟩

/-- A whole number is written in decimal, or in base sixteen behind a call when it is huge. -/
theorem written_int (free : CallsFree bindings) (n : Int) (depth : Nat) :
    ∃ lexemes, Written (Scalar.int n).text lexemes
      (Builds ground graph place bindings 4 depth (.scalar (.int n))) := by
  rw [int_text]
  split
  · rename_i small
    exact written_small_int small depth
  · exact written_huge_int free n depth

theorem written_scalar (free : CallsFree bindings) (s : Scalar) (readsBack : s.ReadsBack)
    (depth : Nat) :
    ∃ lexemes, Written s.text lexemes
      (Builds ground graph place bindings 4 depth (.scalar s)) := by
  have form : ∀ word ∈ ["None", "True", "False"], WordForm word.toList := by
    intro word inside
    simp only [List.mem_cons, List.not_mem_nil, or_false] at inside
    rcases inside with rfl | rfl | rfl <;>
      exact wordForm_of_decide (by decide +kernel) (by decide +kernel) (by decide +kernel)
        (by decide +kernel)
  cases s with
  | nil => exact written_constant (written_word (by simp) (form "None" (by simp))) rfl depth
  | bool b =>
    cases b with
    | true => exact written_constant (written_word (by simp) (form "True" (by simp))) rfl depth
    | false => exact written_constant (written_word (by simp) (form "False" (by simp))) rfl depth
  | ellipsis => exact written_constant written_ellipsis rfl depth
  | str t => exact written_constant (written_text t) rfl depth
  | codes s => exact written_constant (written_codes s) rfl depth
  | bytes b => exact written_constant (written_bytes b) rfl depth
  | int n => exact written_int free n depth
  | float d =>
    obtain ⟨lexemes, written⟩ := written_float free readsBack depth
    exact ⟨lexemes, written.weaken fun tree builds =>
      builds.weaken (by omega) (Nat.le_refl _)⟩
  | complex re im =>
    obtain ⟨lexemes, written⟩ := written_float free readsBack.1 depth
    obtain ⟨lexemes', written'⟩ := written_float free readsBack.2 depth
    let real : Part := ⟨Scalar.text.floatText re, lexemes, .scalar (.float re)⟩
    let imag : Part := ⟨Scalar.text.floatText im, lexemes', .scalar (.float im)⟩
    have each : ∀ part ∈ [real, imag], Written part.text part.lexemes
        (Part.Builds ground graph place bindings 3 depth part) := by
      intro part inside
      simp only [List.mem_cons, List.not_mem_nil, or_false] at inside
      rcases inside with rfl | rfl
      · exact written
      · exact written'
    obtain ⟨form, plain⟩ := calledName_forms (by decide : "complex" ∈ calledNames)
    have whole := written_call form plain [real, imag] each
    have shape : (Scalar.complex re im).text =
        "complex".toList ++ MacroExpand.callText ([real, imag].map Part.text) := by
      rw [complex_text]
      simp only [List.map_cons, List.map_nil, MacroExpand.callText, commaList_pair]
      simp [real, imag, chars]
    rw [shape]
    exact ⟨_, whole.weaken fun tree call => (builds_complex_call free rfl rfl call).weaken
      (by omega) (Nat.le_refl _)⟩

end Sandbox

end MacroExpand
