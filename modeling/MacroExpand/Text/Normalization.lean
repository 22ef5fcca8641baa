import MacroExpand.Text.Decomposition

/-!
# Normal forms of text

The same text can be written with different characters.  A normal form takes characters apart, puts
combining marks in order of their classes and, unless it is a decomposed form, puts characters
together again.
-/

set_option autoImplicit false

namespace MacroExpand

namespace Normalization

structure Parts where
  parts : List Nat
  /-- Whether the character is the same as its parts, and not only alike. -/
  isCanonical : Bool
  printed : ∀ n ∈ parts, 32 ≤ n
  deriving Repr

def decompositions : Std.HashMap Nat Parts :=
  (codeRows (inflatedTable decompositionData)).foldl (fun table row =>
    row.members.foldl (fun table (code, k) =>
      let parts := row.targets.dropLast ++ row.targets.getLast?.toList.map (· + k)
      if printed : ∀ n ∈ parts, 32 ≤ n then table.insert code ⟨parts, row.mark != '~', printed⟩ else table) table) {}

def compositions : Std.HashMap (Nat × Nat) { n : Nat // 32 ≤ n } :=
  (codeRows (inflatedTable decompositionData)).foldl (fun table row =>
    if row.mark == '=' then
      row.members.foldl (fun table (code, k) =>
        match row.targets with
        | [a, b] => if printed : 32 ≤ code then table.insert (a, b + k) ⟨code, printed⟩ else table
        | _ => table) table
    else table) {}

def combiningClasses : Std.HashMap Nat Nat :=
  (codeRows combiningData).foldl (fun table row =>
    row.members.foldl (fun table (code, _) => table.insert code (row.targets.headD 0)) table) {}

def combiningClass (n : Nat) : Nat := combiningClasses.getD n 0

/-! ## Syllables that are made of two or three letters -/

def syllableFirst : Nat := 0xAC00
def syllableCount : Nat := 11172

def syllableParts (n : Nat) : List Nat :=
  let index := n - syllableFirst
  let last := index % 28
  [0x1100 + index / 588, 0x1161 + index % 588 / 28] ++ (if last = 0 then [] else [0x11A7 + last])

def syllable? (a b : Nat) : Option Nat :=
  if 0x1100 ≤ a ∧ a < 0x1113 ∧ 0x1161 ≤ b ∧ b < 0x1176 then
    some (syllableFirst + ((a - 0x1100) * 21 + (b - 0x1161)) * 28)
  else if syllableFirst ≤ a ∧ a < syllableFirst + syllableCount ∧ (a - syllableFirst) % 28 = 0 ∧
      0x11A8 ≤ b ∧ b < 0x11C3 then some (a + (b - 0x11A7))
  else none

/-! ## Taking apart, ordering, putting together -/

def decompose (table : Std.HashMap Nat Parts) (compatible : Bool) : Nat → Nat → List Nat
  | 0, n => [n]
  | fuel + 1, n =>
    if syllableFirst ≤ n ∧ n < syllableFirst + syllableCount then syllableParts n
    else match table[n]? with
      | some p =>
        if p.isCanonical || compatible then p.parts.flatMap (decompose table compatible fuel) else [n]
      | none => [n]

def insertMark (n : Nat) : List Nat → List Nat
  | [] => [n]
  | m :: rest => if combiningClass n < combiningClass m then n :: m :: rest else m :: insertMark n rest

def orderMarks (run : List Nat) : List Nat → List Nat
  | [] => run
  | n :: rest =>
    if combiningClass n = 0 then run ++ n :: orderMarks [] rest
    else orderMarks (insertMark n run) rest

/-- The character that two are put together to. -/
def whole? (table : Std.HashMap (Nat × Nat) { n : Nat // 32 ≤ n }) (a b : Nat) : Option Nat :=
  (syllable? a b).orElse fun _ => table[(a, b)]?.map Subtype.val

/-- Whether a character stays apart from the starter because of the one in front of it. -/
def isBlocked (kept : List Nat) (n : Nat) : Bool :=
  match kept with
  | m :: _ => decide (combiningClass n ≤ combiningClass m)
  | [] => false

/-- Put characters together: `starter` is the last one that is no mark, `kept` what stands behind it,
last first. -/
def composeFrom (table : Std.HashMap (Nat × Nat) { n : Nat // 32 ≤ n }) (starter : Option Nat) (kept : List Nat) :
    List Nat → List Nat
  | [] => starter.toList ++ kept.reverse
  | n :: rest =>
    match starter with
    | none =>
      if combiningClass n = 0 then kept.reverse ++ composeFrom table (some n) [] rest
      else composeFrom table none (n :: kept) rest
    | some s =>
      match if isBlocked kept n then none else whole? table s n with
      | some w => composeFrom table (some w) kept rest
      | none =>
        if combiningClass n = 0 then s :: (kept.reverse ++ composeFrom table (some n) [] rest)
        else composeFrom table (some s) (n :: kept) rest

def decomposed (compatible : Bool) (text : Text) : List Nat :=
  orderMarks [] (text.flatMap fun c => decompose decompositions compatible 8 c.toNat)

/-! ## Properties that normal forms keep -/

section Kept

variable {P : Nat → Prop} (printed : ∀ n, 32 ≤ n → P n) {table : Std.HashMap Nat Parts} {compatible : Bool} {text run : List Nat} {n : Nat}
include printed

theorem forall_mem_syllableParts : ∀ m ∈ syllableParts n, P m := by
  have far : ∀ first k : Nat, 32 ≤ first → P (first + k) := fun _ _ le => printed _ (Nat.le_add_right_of_le le)
  unfold syllableParts
  refine List.forall_mem_append.mpr ⟨List.forall_mem_cons.mpr ⟨far 0x1100 _ (by decide),
    List.forall_mem_singleton.mpr (far 0x1161 _ (by decide))⟩, ?_⟩
  split
  · exact List.forall_mem_nil _
  · exact List.forall_mem_singleton.mpr (far 0x11A7 _ (by decide))

theorem forall_mem_decompose (fuel : Nat) (holds : P n) : ∀ m ∈ decompose table compatible fuel n, P m := by
  induction fuel generalizing n with
  | zero => exact List.forall_mem_singleton.mpr holds
  | succ fuel ih =>
    rw [decompose]
    split
    · exact forall_mem_syllableParts printed
    · split
      case h_1 p _ =>
        split
        · exact List.forall_mem_flatMap.mpr fun part isPart => ih (printed part (p.printed part isPart))
        · exact List.forall_mem_singleton.mpr holds
      case h_2 => exact List.forall_mem_singleton.mpr holds

omit printed in
theorem forall_mem_insertMark (holds : P n) (each : ∀ m ∈ run, P m) : ∀ m ∈ insertMark n run, P m := by
  induction run with
  | nil => exact List.forall_mem_singleton.mpr holds
  | cons m run ih =>
    obtain ⟨first, rest⟩ := List.forall_mem_cons.mp each
    unfold insertMark
    split
    · exact List.forall_mem_cons.mpr ⟨holds, each⟩
    · exact List.forall_mem_cons.mpr ⟨first, ih rest⟩

omit printed in
theorem forall_mem_orderMarks (marks : ∀ m ∈ run, P m) (each : ∀ m ∈ text, P m) : ∀ m ∈ orderMarks run text, P m := by
  induction text generalizing run with
  | nil => exact marks
  | cons n text ih =>
    obtain ⟨first, rest⟩ := List.forall_mem_cons.mp each
    unfold orderMarks
    split
    · exact List.forall_mem_append.mpr ⟨marks, List.forall_mem_cons.mpr ⟨first, ih (List.forall_mem_nil _) rest⟩⟩
    · exact ih (forall_mem_insertMark first marks) rest

theorem of_syllable? {a b w : Nat} (isWhole : syllable? a b = some w) : P w := by
  have far : 32 ≤ syllableFirst := by decide
  unfold syllable? at isWhole
  generalize syllableFirst = first at far isWhole
  refine printed w ?_
  split at isWhole
  · rw [← Option.some.inj isWhole]
    omega
  · split at isWhole
    · rw [← Option.some.inj isWhole]
      omega
    · cases isWhole

theorem of_whole? {table : Std.HashMap (Nat × Nat) { n : Nat // 32 ≤ n }} {a b w : Nat}
    (isWhole : whole? table a b = some w) : P w := by
  unfold whole? at isWhole
  cases isSyllable : syllable? a b with
  | some v =>
    rw [isSyllable] at isWhole
    exact of_syllable? printed (isSyllable.trans isWhole)
  | none =>
    rw [isSyllable] at isWhole
    obtain ⟨composed, -, rfl⟩ := Option.map_eq_some_iff.mp isWhole
    exact printed _ composed.2

theorem forall_mem_composeFrom {table : Std.HashMap (Nat × Nat) { n : Nat // 32 ≤ n }} {starter : Option Nat}
    (starts : ∀ s, starter = some s → P s) (kept : ∀ m ∈ run, P m) (each : ∀ m ∈ text, P m) : ∀ m ∈ composeFrom table starter run text, P m := by
  induction text generalizing starter run with
  | nil =>
    exact List.forall_mem_append.mpr ⟨fun m isStarter => starts m (Option.mem_toList.mp isStarter),
      fun m inRun => kept m (List.mem_reverse.mp inRun)⟩
  | cons n text ih =>
    obtain ⟨first, rest⟩ := List.forall_mem_cons.mp each
    have again : ∀ m ∈ composeFrom table (some n) [] text, P m :=
      ih (fun _ same => Option.some.inj same ▸ first) (List.forall_mem_nil _) rest
    have back : ∀ m ∈ run.reverse, P m := fun m inRun => kept m (List.mem_reverse.mp inRun)
    unfold composeFrom
    split
    · split
      · exact List.forall_mem_append.mpr ⟨back, again⟩
      · exact ih starts (List.forall_mem_cons.mpr ⟨first, kept⟩) rest
    case h_2 s =>
      split
      case h_1 w isWhole =>
        refine ih (fun _ same => Option.some.inj same ▸ ?_) kept rest
        split at isWhole
        · cases isWhole
        · exact of_whole? printed isWhole
      · split
        · exact List.forall_mem_cons.mpr ⟨starts s rfl, List.forall_mem_append.mpr ⟨back, again⟩⟩
        · exact ih starts (List.forall_mem_cons.mpr ⟨first, kept⟩) rest

theorem forall_mem_decomposed {text : Text} (each : ∀ c ∈ text, P c.toNat) : ∀ m ∈ decomposed compatible text, P m :=
  forall_mem_orderMarks (List.forall_mem_nil _) (List.forall_mem_flatMap.mpr fun c member =>
    forall_mem_decompose printed 8 (each c member))

end Kept

end Normalization

def Text.isAscii (text : Text) : Bool := text.all fun c => c.toNat < 128

/-- The composed normal form of a text.  With `compatible`, characters that are only alike are taken
apart too. -/
def Text.composed (compatible : Bool) (text : Text) : Text :=
  if text.isAscii then text
  else (Normalization.composeFrom Normalization.compositions none [] (Normalization.decomposed compatible text)).map Char.ofNat

/-- Normal forms bring no control characters into a text. -/
theorem Text.not_mem_composed {compatible : Bool} {text : Text} {c : Char} (control : c.toNat < 32) (some : c.toNat ≠ 0)
    (absent : c ∉ text) : c ∉ text.composed compatible := by
  unfold Text.composed
  split
  · exact absent
  · intro member
    obtain ⟨n, isPoint, rfl⟩ := List.mem_map.mp member
    have differs : n ≠ (Char.ofNat n).toNat := by
      have printed : ∀ k, 32 ≤ k → k ≠ (Char.ofNat n).toNat := fun k le => by omega
      exact Normalization.forall_mem_composeFrom printed (by simp) (List.forall_mem_nil _)
        (Normalization.forall_mem_decomposed printed fun d inText same => absent (Char.toNat_inj.mp same ▸ inText)) n isPoint
    by_cases valid : n.isValidChar
    · exact differs (by rw [Char.ofNat, dif_pos valid]; rfl)
    · exact some (by rw [Char.ofNat, dif_neg valid]; rfl)

def Text.plainName (name : Text) : Text := name.composed true

end MacroExpand
