import MacroExpand.Proofs.Breaks
import MacroExpand.Text.Utf8

/-!
# Byte columns and offsets

Trees place nodes by lines and bytes, splicing by characters from the start of the text.  A column is the length of what
the first bytes of a line decode to, a byte that falls inside a character standing for the whole of it; with the start
of the line it is the offset of the place, whatever characters stand in front and whatever ends the lines.
-/

set_option autoImplicit false

namespace MacroExpand

/-! ## Decoding what was encoded -/

theorem utf8DecodeLoosely_skip (bytes : List UInt8) (k : Nat) (done : Text) :
    utf8DecodeLoosely k done bytes = utf8DecodeLoosely 0 done (bytes.drop k) := by
  induction bytes generalizing k with
  | nil => simp [utf8DecodeLoosely]
  | cons b rest ih =>
    cases k with
    | zero => rfl
    | succ k => rw [utf8DecodeLoosely, ih, List.drop_succ_cons]

theorem utf8DecodeLoosely_char {b : UInt8} {rest : List UInt8} {c : Char} {k : Nat}
    (step : utf8Step b rest = .char c (k + 1)) (done : Text) :
    utf8DecodeLoosely 0 done (b :: rest) = utf8DecodeLoosely 0 (c :: done) (rest.drop k) := by
  rw [utf8DecodeLoosely, step]
  exact utf8DecodeLoosely_skip rest k _

theorem utf8DecodeLoosely_fault {b : UInt8} {rest : List UInt8} {fault : Utf8Fault} {k : Nat}
    (step : utf8Step b rest = .fault fault (k + 1)) (done : Text) :
    utf8DecodeLoosely 0 done (b :: rest) = utf8DecodeLoosely 0 ('\uFFFD' :: done) (rest.drop k) := by
  rw [utf8DecodeLoosely, step]
  exact utf8DecodeLoosely_skip rest k _

theorem isContinuation_ofNat (n : Nat) : isContinuation (UInt8.ofNat (n % 64 + 128)) = true := by
  have each : ∀ k < 64, isContinuation (UInt8.ofNat (k + 128)) = true := by decide
  exact each _ (Nat.mod_lt _ (by decide))

theorem continuationBits_ofNat (n : Nat) : continuationBits (UInt8.ofNat (n % 64 + 128)) = n % 64 := by
  rw [continuationBits, UInt8.toNat_ofNat']
  omega

theorem encode_cases (c : Char) :
    (c.toNat < 0x80 ∧ String.utf8EncodeChar c = [UInt8.ofNat c.toNat]) ∨
    (0x80 ≤ c.toNat ∧ c.toNat < 0x800 ∧ String.utf8EncodeChar c =
      [UInt8.ofNat (c.toNat / 64 % 32 + 192), UInt8.ofNat (c.toNat % 64 + 128)]) ∨
    (0x800 ≤ c.toNat ∧ c.toNat < 0x10000 ∧ (c.toNat < 0xD800 ∨ 0xDFFF < c.toNat) ∧ String.utf8EncodeChar c =
      [UInt8.ofNat (c.toNat / 4096 % 16 + 224), UInt8.ofNat (c.toNat / 64 % 64 + 128),
        UInt8.ofNat (c.toNat % 64 + 128)]) ∨
    (0x10000 ≤ c.toNat ∧ c.toNat < 0x110000 ∧ String.utf8EncodeChar c =
      [UInt8.ofNat (c.toNat / 262144 % 8 + 240), UInt8.ofNat (c.toNat / 4096 % 64 + 128),
        UInt8.ofNat (c.toNat / 64 % 64 + 128), UInt8.ofNat (c.toNat % 64 + 128)]) := by
  have valid : c.toNat < 0xD800 ∨ 0xDFFF < c.toNat ∧ c.toNat < 0x110000 := c.valid
  have encoded : String.utf8EncodeChar c = _ := rfl
  rw [String.utf8EncodeChar] at encoded
  change String.utf8EncodeChar c = if c.toNat ≤ 127 then _ else if c.toNat ≤ 2047 then _ else
    if c.toNat ≤ 65535 then _ else _ at encoded
  rw [encoded]
  split
  · exact .inl ⟨by omega, rfl⟩
  · split
    · exact .inr (.inl ⟨by omega, by omega, rfl⟩)
    · split
      · exact .inr (.inr (.inl ⟨by omega, by omega, by omega, rfl⟩))
      · exact .inr (.inr (.inr ⟨by omega, by omega, rfl⟩))

/-- The second of three bytes is none that would make the form overlong or the character a surrogate. -/
theorem second_three {v : Nat} (low : 0x800 ≤ v) (high : v < 0x10000) (valid : v < 0xD800 ∨ 0xDFFF < v) :
    (if UInt8.ofNat (v / 64 % 64 + 128) < 0xA0 then v / 4096 % 16 + 224 == 0xE0 else v / 4096 % 16 + 224 == 0xED) =
      false := by
  have small : UInt8.ofNat (v / 64 % 64 + 128) < 0xA0 ↔ v / 64 % 64 < 32 := by
    rw [UInt8.lt_iff_toNat_lt, UInt8.toNat_ofNat']
    change _ < 160 ↔ _
    omega
  have deep : v / 4096 = v / 64 / 64 := by omega
  simp only [small]
  split <;> rw [beq_eq_false_iff_ne] <;> omega

/-- The second of four bytes is none that would make the form overlong or the character too large. -/
theorem second_four {v : Nat} (low : 0x10000 ≤ v) (high : v < 0x110000) :
    (if UInt8.ofNat (v / 4096 % 64 + 128) < 0x90 then v / 262144 % 8 + 240 == 0xF0 else v / 262144 % 8 + 240 == 0xF4) =
      false := by
  have small : UInt8.ofNat (v / 4096 % 64 + 128) < 0x90 ↔ v / 4096 % 64 < 16 := by
    rw [UInt8.lt_iff_toNat_lt, UInt8.toNat_ofNat']
    change _ < 144 ↔ _
    omega
  have deep : v / 262144 = v / 4096 / 64 := by omega
  simp only [small]
  split <;> rw [beq_eq_false_iff_ne] <;> omega

section
variable {c : Char} {b : UInt8} {tail : List UInt8}

theorem utf8Step_encode (encoded : String.utf8EncodeChar c = b :: tail) (more : List UInt8) :
    utf8Step b (tail ++ more) = .char c (tail.length + 1) := by
  obtain ⟨v, isCode⟩ : ∃ v, v = c.toNat := ⟨_, rfl⟩
  have isChar : Char.ofNat v = c := isCode ▸ Char.ofNat_toNat c
  rcases encode_cases c with ⟨high, bytes⟩ | ⟨low, high, bytes⟩ | ⟨low, high, valid, bytes⟩ | ⟨low, high, bytes⟩ <;>
    rw [← isCode] at * <;> obtain ⟨rfl, rfl⟩ := List.cons.inj (encoded.symm.trans bytes)
  · have first : (UInt8.ofNat v).toNat = v := by rw [UInt8.toNat_ofNat']; omega
    simp only [utf8Step, first, isChar]
    rw [if_pos high]
    rfl
  · have first : (UInt8.ofNat (v / 64 % 32 + 192)).toNat = v / 64 % 32 + 192 := by rw [UInt8.toNat_ofNat']; omega
    have whole : (v / 64 % 32 + 192 - 0xC0) * 64 + v % 64 = v := by omega
    simp only [utf8Step, first, List.cons_append, isContinuation_ofNat, continuationBits_ofNat, whole, isChar]
    rw [if_neg (by omega), if_neg (by omega), if_pos (by omega)]
    rfl
  · have first : (UInt8.ofNat (v / 4096 % 16 + 224)).toNat = v / 4096 % 16 + 224 := by rw [UInt8.toNat_ofNat']; omega
    have whole : (v / 4096 % 16 + 224 - 0xE0) * 4096 + v / 64 % 64 * 64 + v % 64 = v := by omega
    simp only [utf8Step, first, List.cons_append, isContinuation_ofNat, continuationBits_ofNat, whole, isChar,
      second_three low high valid]
    rw [if_neg (by omega), if_neg (by omega), if_neg (by omega), if_pos (by omega)]
    rfl
  · have first : (UInt8.ofNat (v / 262144 % 8 + 240)).toNat = v / 262144 % 8 + 240 := by rw [UInt8.toNat_ofNat']; omega
    have whole : (v / 262144 % 8 + 240 - 0xF0) * 262144 + v / 4096 % 64 * 4096 + v / 64 % 64 * 64 + v % 64 = v := by
      omega
    simp only [utf8Step, first, List.cons_append, isContinuation_ofNat, continuationBits_ofNat, whole, isChar,
      second_four low high]
    rw [if_neg (by omega), if_neg (by omega), if_neg (by omega), if_neg (by omega), if_pos (by omega)]
    rfl

/-- The bytes of a character without the last ones are read as one fault. -/
theorem utf8Step_cut (encoded : String.utf8EncodeChar c = b :: tail) {k : Nat} (short : k < tail.length) :
    utf8Step b (tail.take k) = .fault .ending (k + 1) := by
  obtain ⟨v, isCode⟩ : ∃ v, v = c.toNat := ⟨_, rfl⟩
  rcases encode_cases c with ⟨high, bytes⟩ | ⟨low, high, bytes⟩ | ⟨low, high, valid, bytes⟩ | ⟨low, high, bytes⟩ <;>
    rw [← isCode] at * <;> obtain ⟨rfl, rfl⟩ := List.cons.inj (encoded.symm.trans bytes)
  · cases short
  · obtain rfl : k = 0 := Nat.lt_one_iff.mp short
    have first : (UInt8.ofNat (v / 64 % 32 + 192)).toNat = v / 64 % 32 + 192 := by rw [UInt8.toNat_ofNat']; omega
    simp only [utf8Step, first, List.take_zero]
    rw [if_neg (by omega), if_neg (by omega), if_pos (by omega)]
  · have first : (UInt8.ofNat (v / 4096 % 16 + 224)).toNat = v / 4096 % 16 + 224 := by rw [UInt8.toNat_ofNat']; omega
    simp only [utf8Step, first]
    rw [if_neg (by omega), if_neg (by omega), if_neg (by omega), if_pos (by omega)]
    match k, short with
    | 0, _ => rfl
    | 1, _ =>
      simp only [List.take_succ_cons, List.take_zero, isContinuation_ofNat, second_three low high valid]
      rfl
  · have first : (UInt8.ofNat (v / 262144 % 8 + 240)).toNat = v / 262144 % 8 + 240 := by rw [UInt8.toNat_ofNat']; omega
    simp only [utf8Step, first]
    rw [if_neg (by omega), if_neg (by omega), if_neg (by omega), if_neg (by omega), if_pos (by omega)]
    match k, short with
    | 0, _ => rfl
    | 1, _ | 2, _ =>
      simp only [List.take_succ_cons, List.take_zero, isContinuation_ofNat, second_four low high]
      rfl

end

/-- As many bytes of a line as there are decode to as many characters as begin among them. -/
theorem length_decode (line : Text) (n : Nat) (done : Text) :
    (utf8DecodeLoosely 0 done (line.utf8.take n)).length = done.length + line.charsBefore n := by
  induction line generalizing n done with
  | nil => simp [Text.utf8, utf8DecodeLoosely, Text.charsBefore]
  | cons c rest ih =>
    cases n with
    | zero => simp [utf8DecodeLoosely, Text.charsBefore]
    | succ n =>
      obtain ⟨b, tail, encoded⟩ : ∃ b tail, String.utf8EncodeChar c = b :: tail :=
        List.exists_cons_of_ne_nil (String.utf8EncodeChar_ne_nil)
      have size : c.utf8Size = tail.length + 1 := by rw [← String.length_utf8EncodeChar, encoded, List.length_cons]
      have bytes : Text.utf8 (c :: rest) = b :: (tail ++ Text.utf8 rest) := by
        rw [Text.utf8, List.flatMap_cons, encoded, List.cons_append, ← Text.utf8]
      rw [bytes, List.take_succ_cons, Text.charsBefore, size, Nat.add_sub_add_right]
      by_cases short : n < tail.length
      · have all : (tail.take n).drop n = [] := List.drop_eq_nil_of_le (List.length_take_le n tail)
        rw [List.take_append_of_le_length short.le, utf8DecodeLoosely_fault (utf8Step_cut encoded short), all,
          Nat.sub_eq_zero_of_le short.le]
        cases rest <;> simp [utf8DecodeLoosely, Text.charsBefore]
      · rw [List.take_append, List.take_of_length_le (Nat.le_of_not_lt short),
          utf8DecodeLoosely_char (utf8Step_encode encoded _), List.drop_left, ih, List.length_cons]
        omega

namespace Text

theorem charColumn_decode (line : Text) (n : Nat) :
    line.charColumn n = (utf8DecodeLoosely 0 [] (line.utf8.take n)).length := by
  rw [length_decode, charColumn, if_neg (by omega)]
  simp

theorem charsBefore_utf8 (front back : Text) : charsBefore (front ++ back) front.utf8.length = front.length := by
  induction front with
  | nil => cases back <;> rfl
  | cons c front ih =>
    have bytes : Text.utf8 (c :: front) = String.utf8EncodeChar c ++ Text.utf8 front := List.flatMap_cons
    obtain ⟨n, positive⟩ : ∃ n, c.utf8Size + (utf8 front).length = n + 1 :=
      Nat.exists_eq_add_one.mpr (Nat.add_pos_left c.utf8Size_pos _)
    rw [bytes, List.length_append, String.length_utf8EncodeChar, positive, List.cons_append, charsBefore, ← positive,
      Nat.add_sub_cancel_left, ih, List.length_cons, Nat.add_comm]

/-! ## Lines and offsets -/

theorem flatten_lines (text : Text) : text.lines.flatten = text := by
  induction text using lineInduction with
  | last text flat =>
    rw [lines_flat flat]
    cases text <;> simp
  | line body ending rest flat ends ih => rw [lines_line flat ends, List.flatten_cons, ih, List.append_assoc]

/-- A line holds what stands in front of its end, and its end unless it is the last one. -/
theorem lines_terminated (text : Text) {k : Nat} {line : Text} (isLine : text.lines[k]? = some line) :
    ∃ body ending, line = body ++ ending ∧ Flat body ∧
      (EndsLine ending (text.lines.drop (k + 1)).flatten ∨ ending = [] ∧ body ≠ [] ∧ k + 1 = text.lines.length) := by
  induction text using lineInduction generalizing k with
  | last text flat =>
    rw [lines_flat flat] at isLine ⊢
    cases text with
    | nil => cases isLine
    | cons c rest =>
      cases k with
      | zero =>
        obtain rfl := Option.some.inj isLine
        exact ⟨c :: rest, [], (List.append_nil _).symm, flat, .inr ⟨rfl, List.cons_ne_nil _ _, rfl⟩⟩
      | succ k => cases isLine
  | line body ending rest flat ends ih =>
    rw [lines_line flat ends] at isLine ⊢
    cases k with
    | zero =>
      obtain rfl := Option.some.inj isLine
      refine ⟨body, ending, rfl, flat, .inl ?_⟩
      rwa [List.drop_succ_cons, List.drop_zero, flatten_lines]
    | succ k => simpa using ih isLine

/-- Cutting a text into lines loses nothing, and a place given by a line and the bytes in front becomes the number of
characters in front. -/
theorem positions_exact (text : Text) :
    text.lines.flatten = text ∧
    (∀ k line, text.lines[k]? = some line → ∃ body ending, line = body ++ ending ∧ Flat body ∧
      (EndsLine ending (text.lines.drop (k + 1)).flatten ∨ ending = [] ∧ body ≠ [] ∧ k + 1 = text.lines.length)) ∧
    (∀ (line : Text) (n : Nat), line.charColumn n = (utf8DecodeLoosely 0 [] (line.utf8.take n)).length) ∧
    ∀ k front back, text.lines[k]? = some (front ++ back) →
      text = (text.lines.take k).flatten ++ front ++ (back ++ (text.lines.drop (k + 1)).flatten) ∧
      offsetIn text.lineStarts ⟨k + 1, charColumn (front ++ back) front.utf8.length⟩ =
        some (((text.lines.take k).flatten ++ front).length : Int) := by
  refine ⟨flatten_lines text, fun k line => lines_terminated text, charColumn_decode, fun k front back isLine => ?_⟩
  have short := (List.getElem?_eq_some_iff.mp isLine).1
  constructor
  · have parts : text.lines = text.lines.take k ++ (front ++ back) :: text.lines.drop (k + 1) := by
      rw [← (List.getElem?_eq_some_iff.mp isLine).2, List.cons_getElem_drop_succ, List.take_append_drop]
    have whole := flatten_lines text
    rw [parts, List.flatten_append, List.flatten_cons] at whole
    simpa using whole.symm
  · have column : charColumn (front ++ back) front.utf8.length = front.length := by
      rw [charColumn, if_neg (by omega), Int.toNat_natCast, charsBefore_utf8]
    have offset := @offsetIn_lineStarts text ⟨k + 1, front.length⟩ (Nat.succ_pos k) (by dsimp only; omega)
    rw [column, List.length_append]
    simpa using offset

/-- Behind characters of one, two and four bytes. -/
theorem positions_exact_wide :
    offsetIn (lineStarts "a\r\né🦀x".toList) ⟨2, charColumn "é🦀x".toList 6⟩ = some 5 :=
  ((positions_exact "a\r\né🦀x".toList).2.2.2 1 "é🦀".toList "x".toList (by decide)).2

end Text

end MacroExpand
