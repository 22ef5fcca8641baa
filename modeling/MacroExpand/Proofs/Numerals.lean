import MacroExpand.Proofs.Cutting
import MacroExpand.Number.Reading
import MacroExpand.Number.Shortest

/-!
# Numerals read back

The digits of a whole number are cut off as one token, and the value of the token is the number.  The
text of a finite double is a whole part with a fraction, with an exponent or with both, and is cut off
as one token too.  The digits of a number in base sixteen are read back by `Number.readInt`.
-/

set_option autoImplicit false

namespace MacroExpand

/-! ## Digits -/

theorem mem_toDigits {n : Nat} (base : Nat) (big : 1 < base) {c : Char} (member : c ∈ Nat.toDigits base n) :
    ∃ k < base, c = Nat.digitChar k := by
  induction n using Nat.strongRecOn with
  | ind n ih =>
    rw [Nat.toDigits_eq_if big] at member
    split at member
    · rename_i small
      exact ⟨n, small, List.mem_singleton.mp member⟩
    · rename_i large
      rw [List.mem_append, List.mem_singleton] at member
      rcases member with earlier | last
      · exact ih (n / base) (Nat.div_lt_self (by omega) big) earlier
      · exact ⟨n % base, Nat.mod_lt n (by omega), last⟩

theorem foldl_toDigits {base : Nat} (big : 1 < base) (value : Char → Nat)
    (reads : ∀ k < base, value (Nat.digitChar k) = k) (n : Nat) :
    (Nat.toDigits base n).foldl (fun v c => v * base + value c) 0 = n := by
  induction n using Nat.strongRecOn with
  | ind n ih =>
    rw [Nat.toDigits_eq_if big]
    split
    · rename_i small
      simp [reads n small]
    · rename_i large
      have last : n % base < base := Nat.mod_lt n (by omega)
      have whole := Nat.div_add_mod n base
      rw [List.foldl_append, ih (n / base) (Nat.div_lt_self (by omega) big), List.foldl_cons,
        List.foldl_nil, reads _ last, Nat.mul_comm]
      exact whole

theorem head_toDigits {n : Nat} (positive : 0 < n) : (Nat.toDigits 10 n).head? ≠ some '0' := by
  induction n using Nat.strongRecOn with
  | ind n ih =>
    rw [Nat.toDigits_eq_if (by decide)]
    split
    · rename_i small
      have all : ∀ k : Fin 10, 0 < k.val → [Nat.digitChar k.val].head? ≠ some '0' := by decide
      exact all ⟨n, small⟩ positive
    · rename_i large
      have earlier := ih (n / 10) (Nat.div_lt_self (by omega) (by decide)) (by omega)
      cases form : Nat.toDigits 10 (n / 10) with
      | nil => exact absurd form Nat.toDigits_ne_nil
      | cons c digits =>
        rw [form] at earlier
        exact earlier

theorem decimalDigits_isDigit (n : Nat) : ∀ c ∈ decimalDigits n, c.isDigit = true :=
  fun _ member => Nat.isDigit_of_mem_toDigits (by decide) (by decide) member

theorem decimalDigits_ne_nil (n : Nat) : decimalDigits n ≠ [] := Nat.toDigits_ne_nil

theorem decimalDigits_inj {n m : Nat} (same : decimalDigits n = decimalDigits m) : n = m := by
  have left := Nat.ofDigitChars_ten_toDigits (n := n)
  have right := Nat.ofDigitChars_ten_toDigits (n := m)
  unfold decimalDigits at same
  rw [← left, same, right]

theorem isDigit_of_digitChar {c : Char} (digit : c.isDigit = true) :
    c.toNat < 128 ∧ isPrintable c = true ∧ c ≠ '_' ∧ c ≠ '.' ∧ c ≠ '-' := by
  have bounds : 48 ≤ c.toNat ∧ c.toNat ≤ 57 := by
    unfold Char.isDigit at digit
    rw [Bool.and_eq_true, decide_eq_true_eq, decide_eq_true_eq] at digit
    exact ⟨UInt32.le_iff_toNat_le.mp digit.1, UInt32.le_iff_toNat_le.mp digit.2⟩
  refine ⟨by omega, ?_, ?_, ?_, ?_⟩
  · unfold isPrintable
    rw [if_pos (by omega), decide_eq_true (by omega)]
  · rintro rfl
    exact absurd bounds (by decide)
  · rintro rfl
    exact absurd bounds (by decide)
  · rintro rfl
    exact absurd bounds (by decide)

/-! ## Cutting numbers -/

/-- What may stand behind an expression that stands in brackets or alone. -/
def Closes (rest : Text) : Prop :=
  ∀ c ∈ rest.head?, c = ',' ∨ c = ')' ∨ c = ']' ∨ c = '\x7d' ∨ c = ':'

theorem Closes.nil : Closes [] := by
  intro c member
  cases member

theorem Closes.cons {c : Char} (rest : Text)
    (fits : c = ',' ∨ c = ')' ∨ c = ']' ∨ c = '\x7d' ∨ c = ':') : Closes (c :: rest) := by
  intro d member
  cases member
  exact fits

theorem Closes.endsName {rest : Text} (closes : Closes rest) : Lexer.EndsName rest := by
  intro c member
  rcases closes c member with rfl | rfl | rfl | rfl | rfl <;> decide

namespace Number

theorem digitRun_digits {digits rest : Text} (all : ∀ c ∈ digits, c.isDigit = true)
    (stop : ∀ c ∈ rest.head?, c.isDigit = false ∧ c ≠ '_') (fuel : Nat) :
    digitRun Char.isDigit (fuel + 1) (digits ++ rest) = some (digits, rest) := by
  obtain ⟨taken, dropped⟩ :=
    Lexer.takeWhile_append_of_stop _ all fun c member => (stop c member).1
  unfold digitRun
  simp only [taken, dropped]
  cases rest with
  | nil => rfl
  | cons c rest =>
    have noGap := (stop c rfl).2
    split
    · rename_i found
      cases found
      exact absurd rfl noGap
    · rfl

theorem digitRun_whole {digits rest : Text} (all : ∀ c ∈ digits, c.isDigit = true)
    (nonempty : digits ≠ []) (stop : ∀ c ∈ rest.head?, c.isDigit = false ∧ c ≠ '_') :
    digitRun Char.isDigit (digits ++ rest).length (digits ++ rest) = some (digits, rest) := by
  have positive := List.length_pos_iff.mpr nonempty
  rw [show (digits ++ rest).length = (digits.length - 1 + rest.length) + 1 by
    rw [List.length_append]; omega]
  exact digitRun_digits all stop _

theorem stops_closes {rest : Text} (closes : Closes rest) :
    ∀ c ∈ rest.head?, c.isDigit = false ∧ c ≠ '_' := by
  intro c member
  rcases closes c member with rfl | rfl | rfl | rfl | rfl <;> decide

theorem decimalEnd_closes (done : Text) {rest : Text} (closes : Closes rest) :
    decimalEnd done rest = .ok (done, rest) := by
  cases rest with
  | nil => rfl
  | cons c rest =>
    rcases closes c rfl with rfl | rfl | rfl | rfl | rfl <;> rfl

theorem exponent_closes (done : Text) {rest : Text} (closes : Closes rest) :
    exponent done rest = .ok (done, rest) := by
  cases rest with
  | nil => rfl
  | cons c rest =>
    rcases closes c rfl with rfl | rfl | rfl | rfl | rfl <;> rfl

theorem fraction_closes (done : Text) {rest : Text} (closes : Closes rest) :
    fraction done rest = .ok (done, rest) := by
  cases rest with
  | nil => rfl
  | cons c rest =>
    rcases closes c rfl with rfl | rfl | rfl | rfl | rfl <;> rfl

theorem exponent_signed (done : Text) {sign : Char} (isSign : sign = '+' ∨ sign = '-') {digits rest : Text}
    (all : ∀ c ∈ digits, c.isDigit = true) (nonempty : digits ≠ []) (closes : Closes rest) :
    exponent done ('e' :: sign :: (digits ++ rest)) = .ok (done ++ 'e' :: sign :: digits, rest) := by
  have run := digitRun_whole all nonempty (stops_closes closes)
  have first : (digits ++ rest).head?.any Char.isDigit = true := by
    cases digits with
    | nil => exact absurd rfl nonempty
    | cons c digits => exact all c (by simp)
  unfold exponent
  rcases isSign with rfl | rfl
  · simp only [Char.reduceBEq, Bool.true_or, if_true, first, run]
    exact decimalEnd_closes _ closes
  · simp only [Char.reduceBEq, Bool.true_or, if_true, first, run]
    exact decimalEnd_closes _ closes

inductive ExponentForm : Text → Prop where
  | none : ExponentForm []
  | signed {sign : Char} {digits : Text} (isSign : sign = '+' ∨ sign = '-')
      (all : ∀ c ∈ digits, c.isDigit = true) (nonempty : digits ≠ []) :
      ExponentForm ('e' :: sign :: digits)

theorem exponent_form (done : Text) {tail rest : Text} (form : ExponentForm tail)
    (closes : Closes rest) : exponent done (tail ++ rest) = .ok (done ++ tail, rest) := by
  cases form with
  | none =>
    rw [List.append_nil]
    exact exponent_closes done closes
  | signed isSign all nonempty => exact exponent_signed done isSign all nonempty closes

theorem exponent_stops {tail rest : Text} (form : ExponentForm tail) (closes : Closes rest) :
    ∀ c ∈ (tail ++ rest).head?, c.isDigit = false ∧ c ≠ '_' := by
  cases form with
  | none => exact stops_closes closes
  | signed _ _ _ =>
    intro c member
    cases member
    decide

/-- The text of a number with a fraction or an exponent. -/
inductive DoubleForm : Text → Prop where
  | fraction (whole fraction tail : Text) (all : ∀ c ∈ whole, c.isDigit = true) (nonempty : whole ≠ [])
      (more : ∀ c ∈ fraction, c.isDigit = true) (nonempty' : fraction ≠ [])
      (exponent : ExponentForm tail) : DoubleForm (whole ++ '.' :: (fraction ++ tail))
  | exponent {whole tail : Text} (all : ∀ c ∈ whole, c.isDigit = true) (nonempty : whole ≠ [])
      (exponent : ExponentForm tail) (present : tail ≠ []) : DoubleForm (whole ++ tail)

theorem DoubleForm.head {text : Text} (form : DoubleForm text) :
    ∃ c more, text = c :: more ∧ c.isDigit = true := by
  cases form with
  | @fraction whole _ _ all nonempty _ _ _ =>
    cases whole with
    | nil => exact absurd rfl nonempty
    | cons c whole => exact ⟨c, _, rfl, all c (by simp)⟩
  | @exponent whole _ all nonempty _ _ =>
    cases whole with
    | nil => exact absurd rfl nonempty
    | cons c whole => exact ⟨c, _, rfl, all c (by simp)⟩

theorem take_decimal {digits rest : Text} (all : ∀ c ∈ digits, c.isDigit = true)
    (nonempty : digits ≠ [])
    (stop : ∀ c ∈ rest.head?, c ≠ 'x' ∧ c ≠ 'X' ∧ c ≠ 'o' ∧ c ≠ 'O' ∧ c ≠ 'b' ∧ c ≠ 'B') :
    take (digits ++ rest) = take.decimal (digits ++ rest) := by
  cases digits with
  | nil => exact absurd rfl nonempty
  | cons d digits =>
    have digit := all d (by simp)
    have noLetter : ∀ c more, digits ++ rest = c :: more →
        c ≠ 'x' ∧ c ≠ 'X' ∧ c ≠ 'o' ∧ c ≠ 'O' ∧ c ≠ 'b' ∧ c ≠ 'B' := by
      intro c more form
      cases digits with
      | nil =>
        rw [List.nil_append] at form
        exact stop c (by rw [form]; rfl)
      | cons e digits =>
        have second := all e (by simp)
        rw [List.cons_append] at form
        cases form
        refine ⟨?_, ?_, ?_, ?_, ?_, ?_⟩ <;> (rintro rfl; exact absurd second (by decide))
    rw [List.cons_append]
    unfold take
    split
    · rename_i c more form
      obtain ⟨rfl, rest_eq⟩ := List.cons.inj form
      obtain ⟨noX, noX', noO, noO', noB, noB'⟩ := noLetter c more rest_eq
      simp only [beq_eq_false_iff_ne.mpr noX, beq_eq_false_iff_ne.mpr noX',
        beq_eq_false_iff_ne.mpr noO, beq_eq_false_iff_ne.mpr noO', beq_eq_false_iff_ne.mpr noB,
        beq_eq_false_iff_ne.mpr noB', Bool.false_or, Bool.false_eq_true, if_false]
    · rename_i form
      cases form
      exact absurd digit (by decide)
    · rfl

theorem take_whole (n : Nat) {rest : Text} (closes : Closes rest) :
    take (decimalDigits n ++ rest) = .ok (decimalDigits n, rest) := by
  have all := decimalDigits_isDigit n
  have nonempty := decimalDigits_ne_nil n
  rw [take_decimal all nonempty]
  · unfold take.decimal
    rw [digitRun_whole all nonempty (stops_closes closes)]
    simp only
    rw [if_neg]
    · exact fraction_closes _ closes
    · intro refused
      simp only [Bool.and_eq_true, beq_iff_eq] at refused
      obtain ⟨⟨zero, other⟩, -⟩ := refused
      rcases Nat.eq_zero_or_pos n with rfl | positive
      · exact absurd other (by decide)
      · exact head_toDigits positive zero
  · intro c member
    rcases closes c member with rfl | rfl | rfl | rfl | rfl <;> decide

theorem take_double {text rest : Text} (form : DoubleForm text) (closes : Closes rest) :
    take (text ++ rest) = .ok (text, rest) := by
  cases form with
  | @fraction whole fraction tailText all nonempty more nonempty' tail =>
    have first : (fraction ++ (tailText ++ rest)).head?.any Char.isDigit = true := by
      cases fraction with
      | nil => exact absurd rfl nonempty'
      | cons c fraction => exact more c (by simp)
    have text_eq : whole ++ '.' :: (fraction ++ tailText) ++ rest =
        whole ++ '.' :: (fraction ++ (tailText ++ rest)) := by simp
    have point : ∀ c ∈ ('.' :: (fraction ++ (tailText ++ rest))).head?, c.isDigit = false ∧ c ≠ '_' := by
      intro c member
      cases member
      decide
    rw [text_eq, take_decimal all nonempty]
    · unfold take.decimal
      rw [digitRun_whole all nonempty point]
      simp only [List.head?_cons, Option.any_some, Char.reduceBEq, Bool.true_or, Bool.not_true,
        Bool.and_false, Bool.false_eq_true, if_false]
      unfold Number.fraction
      simp only [first, if_true, digitRun_whole more nonempty' (exponent_stops tail closes)]
      rw [exponent_form _ tail closes]
      simp
    · intro c member
      cases member
      decide
  | @exponent whole _ all nonempty tail present =>
    cases tail with
    | none => exact absurd rfl present
    | signed isSign more nonempty' =>
      rw [List.append_assoc, take_decimal all nonempty]
      · unfold take.decimal
        rw [digitRun_whole all nonempty
          (exponent_stops (.signed isSign more nonempty') closes)]
        simp only [List.cons_append, List.head?_cons, Option.any_some, Char.reduceBEq,
          Bool.true_or, Bool.or_true, Bool.not_true, Bool.and_false, Bool.false_eq_true, if_false]
        unfold Number.fraction
        exact exponent_signed whole isSign more nonempty' closes
      · intro c member
        cases member
        decide

end Number

namespace Lexer

theorem cuts_taken (opened : List Char) {c : Char} {text : Text} (digit : c.isDigit = true)
    (taken : ∀ rest, Closes rest → Number.take (c :: text ++ rest) = .ok (c :: text, rest)) :
    Cuts opened (c :: text) [(.number, c :: text)] opened Closes := by
  refine Cuts.ofPush (List.cons_ne_nil c text) ?_
  intro s rest closes inside
  obtain ⟨-, shown, -, noPoint, -⟩ := isDigit_of_digitChar digit
  have notSpecial : c ≠ '\n' ∧ c ≠ '\\' ∧ c ≠ ' ' ∧ c ≠ '\t' ∧ c ≠ '\x0c' ∧ c ≠ '#' := by
    refine ⟨?_, ?_, ?_, ?_, ?_, ?_⟩ <;> (rintro rfl; exact absurd digit (by decide))
  obtain ⟨noFeed, noJoin, noSpace, noTab, noForm, noComment⟩ := notSpecial
  rw [List.cons_append] at inside
  rw [step_inside inside noFeed noJoin]
  simp only [beq_eq_false_iff_ne.mpr noSpace, beq_eq_false_iff_ne.mpr noTab,
    beq_eq_false_iff_ne.mpr noForm, beq_eq_false_iff_ne.mpr noComment, digit, Bool.false_or,
    Bool.true_or, Bool.false_eq_true, if_false, if_true]
  rw [← List.cons_append, taken rest closes]

theorem cuts_whole (opened : List Char) (n : Nat) :
    Cuts opened (decimalDigits n) [(.number, decimalDigits n)] opened Closes := by
  have taken := fun rest (closes : Closes rest) => Number.take_whole n closes
  have all := decimalDigits_isDigit n
  cases form : decimalDigits n with
  | nil => exact absurd form (decimalDigits_ne_nil n)
  | cons c text =>
    rw [form] at taken all
    exact cuts_taken opened (all c (by simp)) taken

theorem cuts_double (opened : List Char) {text : Text} (form : Number.DoubleForm text) :
    Cuts opened text [(.number, text)] opened Closes := by
  have taken := fun rest (closes : Closes rest) => Number.take_double form closes
  obtain ⟨c, more, rfl, digit⟩ := form.head
  exact cuts_taken opened digit taken

end Lexer

/-! ## The text of a double -/

theorem replicate_isDigit (n : Nat) : ∀ c ∈ List.replicate n '0', c.isDigit = true := by
  intro c member
  rw [(List.mem_replicate.mp member).2]
  rfl

theorem exponentForm_exponentText (e : Int) : Number.ExponentForm (exponentText e) := by
  have all := decimalDigits_isDigit e.natAbs
  have sign : (if e < 0 then '-' else '+') = '+' ∨ (if e < 0 then '-' else '+') = '-' := by
    split
    · exact Or.inr rfl
    · exact Or.inl rfl
  unfold exponentText
  simp only
  refine .signed sign ?_ ?_
  · split
    · intro c member
      rw [List.mem_cons] at member
      rcases member with rfl | inner
      · rfl
      · exact all c inner
    · exact all
  · split
    · exact List.cons_ne_nil _ _
    · exact decimalDigits_ne_nil _

theorem doubleForm_layout (d : Decimal10) : Number.DoubleForm d.layout := by
  have all := decimalDigits_isDigit d.digits
  have nonempty := decimalDigits_ne_nil d.digits
  have positive := List.length_pos_iff.mpr nonempty
  unfold Decimal10.layout
  simp only
  split
  · split
    · refine .fraction _ _ [] ?_ ?_ (List.all_eq_true.mp (by decide)) (List.cons_ne_nil '0' []) .none
      · intro c member
        rw [List.mem_append] at member
        rcases member with early | late
        · exact all c early
        · exact replicate_isDigit _ c late
      · simp [nonempty]
    · rename_i negative
      split
      · have form := Number.DoubleForm.fraction
          ((decimalDigits d.digits).take (d.exponent + (decimalDigits d.digits).length - 1 + 1).toNat)
          ((decimalDigits d.digits).drop (d.exponent + (decimalDigits d.digits).length - 1 + 1).toNat) []
          (fun c member => all c (List.mem_of_mem_take member)) ?_
          (fun c member => all c (List.mem_of_mem_drop member)) ?_ .none
        · rw [List.append_nil] at form
          exact form
        · intro empty
          rw [List.take_eq_nil_iff] at empty
          rcases empty with zero | none
          · omega
          · exact nonempty none
        · intro empty
          rw [List.drop_eq_nil_iff] at empty
          omega
      · have form := Number.DoubleForm.fraction ['0']
          (List.replicate
            (-(d.exponent + (decimalDigits d.digits).length - 1) - 1).toNat '0' ++ decimalDigits d.digits) []
          (List.all_eq_true.mp (by decide)) (List.cons_ne_nil '0' []) ?_ ?_ .none
        · rw [List.append_nil] at form
          exact form
        · intro c member
          rw [List.mem_append] at member
          rcases member with early | late
          · exact replicate_isDigit _ c early
          · exact all c late
        · simp [nonempty]
  · have tail := exponentForm_exponentText (d.exponent + (decimalDigits d.digits).length - 1)
    cases shape : decimalDigits d.digits with
    | nil => exact absurd shape nonempty
    | cons c digits =>
      rw [shape] at all tail
      have first : ∀ x ∈ [c], x.isDigit = true := by
        intro x member
        rw [List.mem_singleton] at member
        exact member ▸ all c (by simp)
      cases digits with
      | nil => exact .exponent first (List.cons_ne_nil c []) tail (by simp)
      | cons e digits =>
        exact .fraction _ _ _ first (List.cons_ne_nil c [])
          (fun x member => all x (List.mem_cons_of_mem c member)) (List.cons_ne_nil e digits) tail

def Double.body (d : Double) : Text := (Number.takeSign d.text).2

theorem takeSign_digit {c : Char} (digit : c.isDigit = true) (text : Text) :
    Number.takeSign (c :: text) = (false, c :: text) := by
  unfold Number.takeSign
  split
  · rename_i found
    cases found
    exact absurd digit (by decide)
  · rename_i found
    cases found
    exact absurd digit (by decide)
  · rfl

theorem text_finite (d : Double) (m : Nat) (q : Int) (finite : d.kind = .finite m q) :
    Number.DoubleForm d.body ∧ d.text = if d.negative then '-' :: d.body else d.body := by
  have defined : d.isUndefined = false := by
    unfold Double.isUndefined
    rw [finite]
    rfl
  obtain ⟨body, form, text⟩ : ∃ body, Number.DoubleForm body ∧
      d.text = if d.negative then '-' :: body else body := by
    unfold Double.text
    simp only [finite, defined, Bool.not_false, Bool.and_true]
    refine ⟨_, ?_, rfl⟩
    split
    · exact .fraction ['0'] ['0'] [] (List.all_eq_true.mp (by decide)) (by decide)
        (List.all_eq_true.mp (by decide)) (by decide) .none
    · exact doubleForm_layout _
  have same : d.body = body := by
    obtain ⟨c, more, rfl, digit⟩ := form.head
    unfold Double.body
    rw [text]
    split
    · rfl
    · rw [takeSign_digit digit]
  rw [same]
  exact ⟨form, text⟩

/-! ## Values -/

theorem digits_decimalDigits (n : Nat) : Number.digits 10 (decimalDigits n) = n := by
  refine foldl_toDigits (by decide) (fun c => (hexValue c).getD 0) ?_ n
  have all : ∀ k : Fin 10, (hexValue (Nat.digitChar k.val)).getD 0 = k.val := by decide
  intro k small
  exact all ⟨k, small⟩

theorem filter_decimalDigits (n : Nat) : (decimalDigits n).filter (· != '_') = decimalDigits n := by
  rw [List.filter_eq_self]
  intro c member
  have noGap := (isDigit_of_digitChar (decimalDigits_isDigit n c member)).2.2.1
  simp [noGap]

theorem value_decimalDigits (n : Nat) : Number.value (decimalDigits n) = .int n := by
  have all := decimalDigits_isDigit n
  have read := digits_decimalDigits n
  have digitsOnly : (decimalDigits n).all Char.isDigit = true := List.all_eq_true.mpr all
  unfold Number.value
  rw [filter_decimalDigits]
  have second : ∀ c more, decimalDigits n = '0' :: c :: more → c.isDigit = true := by
    intro c more form
    exact all c (by simp [form])
  simp only
  split <;> try (rename_i form; exact absurd (second _ _ form) (by decide))
  cases last : (decimalDigits n).getLast? with
  | none =>
    rw [List.getLast?_eq_none_iff] at last
    exact absurd last (decimalDigits_ne_nil n)
  | some c =>
    have digit := all c (List.mem_of_getLast? last)
    have noUnit : (c == 'j' || c == 'J') = false := by
      rw [Bool.or_eq_false_iff, beq_eq_false_iff_ne, beq_eq_false_iff_ne]
      constructor <;> (rintro rfl; exact absurd digit (by decide))
    simp only [noUnit, Bool.false_eq_true, if_false, digitsOnly, if_true, read]

theorem length_decimalDigits_le {n k : Nat} (positive : 0 < k) (small : n < 10 ^ k) : (decimalDigits n).length ≤ k :=
  (Nat.length_toDigits_le_iff (by decide) positive).mpr small

theorem isTooLong_decimalDigits (n : Nat) (small : n < 10 ^ 1000) :
    Number.isTooLong (decimalDigits n) = false := by
  have short := length_decimalDigits_le (by decide) small
  unfold Number.isTooLong
  rw [filter_decimalDigits]
  simp only
  rw [decide_eq_false (by omega)]
  rfl

theorem isTooLong_double {text : Text} (form : Number.DoubleForm text) :
    Number.isTooLong text = false := by
  have mark : ∃ c ∈ text, c ≠ '_' ∧ c.isDigit = false := by
    cases form with
    | fraction _ _ _ _ _ => exact ⟨'.', by simp, by decide, by decide⟩
    | exponent _ _ tail present =>
      cases tail with
      | none => exact absurd rfl present
      | signed _ _ _ => exact ⟨'e', by simp, by decide, by decide⟩
  obtain ⟨c, member, noGap, noDigit⟩ := mark
  have kept : c ∈ text.filter (· != '_') := by simp [member, noGap]
  have notAll : (text.filter (· != '_')).all Char.isDigit = false := by
    rw [List.all_eq_false]
    exact ⟨c, kept, by simp [noDigit]⟩
  unfold Number.isTooLong
  simp only [notAll, Bool.and_false, Bool.false_and]

/-! ## Numbers in base sixteen -/

theorem readDigits_valid {base : Nat} {text : Text} (valid : ∀ c ∈ text, c ≠ '_' ∧
    ∃ d < base, Number.digitValue c = some d) (nonempty : text ≠ []) (start : Nat) (gap : Bool) :
    Number.readDigits base start gap text =
      some (text.foldl (fun v c => v * base + (Number.digitValue c).getD 0) start) := by
  induction text generalizing start gap with
  | nil => exact absurd rfl nonempty
  | cons c text ih =>
    obtain ⟨noGap, d, small, read⟩ := valid c (by simp)
    rw [Number.readDigits]
    · simp only [read, small, if_true, List.foldl_cons, Option.getD_some]
      cases text with
      | nil => rfl
      | cons e text => exact ih (fun x member => valid x (by simp [member])) (by simp) _ false
    · exact noGap

theorem digitValue_digitChar (k : Nat) (small : k < 16) :
    Nat.digitChar k ≠ '_' ∧ Number.digitValue (Nat.digitChar k) = some k ∧
      (Nat.digitChar k).toNat < 128 ∧ Number.isPlainBlank (Nat.digitChar k) = false ∧
      isPrintable (Nat.digitChar k) = true := by
  have all : ∀ k : Fin 16, Nat.digitChar k.val ≠ '_' ∧
      Number.digitValue (Nat.digitChar k.val) = some k.val ∧ (Nat.digitChar k.val).toNat < 128 ∧
      Number.isPlainBlank (Nat.digitChar k.val) = false ∧
      isPrintable (Nat.digitChar k.val) = true := by decide
  exact all ⟨k, small⟩

theorem readDigits_toDigits (n : Nat) :
    Number.readDigits 16 0 true (Nat.toDigits 16 n) = some n := by
  have valid : ∀ c ∈ Nat.toDigits 16 n, c ≠ '_' ∧ ∃ d < 16, Number.digitValue c = some d := by
    intro c member
    obtain ⟨k, small, rfl⟩ := mem_toDigits _ (by decide) member
    obtain ⟨noGap, read, -, -, -⟩ := digitValue_digitChar k small
    exact ⟨noGap, k, small, read⟩
  rw [readDigits_valid valid Nat.toDigits_ne_nil]
  refine congrArg some (foldl_toDigits (by decide) _ ?_ n)
  intro k small
  rw [(digitValue_digitChar k small).2.1]
  rfl

def hexText (n : Int) : Text :=
  let hex := chars "0x" ++ Nat.toDigits 16 n.natAbs
  if n < 0 then '-' :: hex else hex

theorem hexText_ascii (n : Int) :
    ∀ c ∈ hexText n, c.toNat < 128 ∧ Number.isPlainBlank c = false ∧ isPrintable c = true := by
  have digits : ∀ c ∈ chars "0x" ++ Nat.toDigits 16 n.natAbs,
      c.toNat < 128 ∧ Number.isPlainBlank c = false ∧ isPrintable c = true := by
    intro c member
    rw [List.mem_append] at member
    rcases member with mark | digit
    · have isMark : c = '0' ∨ c = 'x' := by simpa [chars] using mark
      rcases isMark with rfl | rfl <;> decide
    · obtain ⟨k, small, rfl⟩ := mem_toDigits _ (by decide) digit
      exact (digitValue_digitChar k small).2.2
  unfold hexText
  simp only
  split
  · intro c member
    rw [List.mem_cons] at member
    rcases member with rfl | inner
    · decide
    · exact digits c inner
  · exact digits

theorem trimPlain_eq {text : Text} (solid : ∀ c ∈ text, Number.isPlainBlank c = false) :
    Number.trimPlain text = text := by
  have kept : ∀ t : Text, (∀ c ∈ t, Number.isPlainBlank c = false) →
      t.dropWhile Number.isPlainBlank = t := by
    intro t solid
    cases t with
    | nil => rfl
    | cons c t => simp [solid c (by simp)]
  unfold Number.trimPlain
  rw [kept text solid, kept _ (by simpa using solid), List.reverse_reverse]

theorem readInt_hexText (n : Int) : Number.readInt 16 (hexText n) = some n := by
  have ascii := hexText_ascii n
  have plain : (hexText n).plainDigits = hexText n := by
    unfold Text.plainDigits
    conv =>
      rhs
      rw [← List.map_id (hexText n)]
    refine List.map_congr_left ?_
    intro c member
    rw [if_pos (ascii c member).1]
    rfl
  have trimmed : Number.trimPlain (hexText n) = hexText n :=
    trimPlain_eq fun c member => (ascii c member).2.1
  have noGap : ∀ more, Nat.toDigits 16 n.natAbs ≠ '_' :: more := by
    intro more form
    obtain ⟨k, small, same⟩ := mem_toDigits (n := n.natAbs) (c := '_') 16 (by decide) (by simp [form])
    exact (digitValue_digitChar k small).1 same.symm
  have based : Number.takeBase 16 (chars "0x" ++ Nat.toDigits 16 n.natAbs) =
      (16, Nat.toDigits 16 n.natAbs) := by
    generalize Nat.toDigits 16 n.natAbs = digits at noGap
    have named : ('x' : Char).toLower = 'x' := by decide
    simp only [Number.takeBase, chars, String.reduceToList, List.cons_append, List.nil_append, named,
      or_true, if_true]
  have read := readDigits_toDigits n.natAbs
  unfold Number.readInt
  rw [plain, trimmed]
  unfold hexText
  by_cases negative : n < 0
  · simp only [negative, if_true, Number.takeSign, based, read]
    rw [if_neg (fun both => absurd both.1 (by decide))]
    exact congrArg some (Int.eq_neg_natAbs_of_nonpos (by omega)).symm
  · have noSign : Number.takeSign (chars "0x" ++ Nat.toDigits 16 n.natAbs) =
        (false, chars "0x" ++ Nat.toDigits 16 n.natAbs) := rfl
    simp only [negative, if_false, noSign, based, read]
    rw [if_neg (fun both => absurd both.1 (by decide))]
    exact congrArg some (Int.natAbs_of_nonneg (by omega))

end MacroExpand
