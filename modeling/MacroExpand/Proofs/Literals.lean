import MacroExpand.Proofs.Cutting
import MacroExpand.Syntax.StringLiteral

/-!
# Quoted texts and bytes read back

A quoted text is made of chunks: each is a character that stands for itself or a backslash with what
belongs to it.  Cutting finds the closing quote behind the chunks, and undoing the escapes of the
chunks gives the text that was quoted.
-/

set_option autoImplicit false

namespace MacroExpand

/-! ## Hexadecimal digits -/

theorem hexValue_hexDigit (n : Nat) (small : n < 16) : hexValue (hexDigit n) = some n := by
  have all : ∀ k : Fin 16, hexValue (hexDigit k.val) = some k.val := by decide
  exact all ⟨n, small⟩

theorem hexDigits_length (n width : Nat) : (hexDigits n width).length = width := by
  induction width generalizing n with
  | zero => rfl
  | succ width ih =>
    rw [hexDigits, List.length_append, ih]
    rfl

/-- Every hexadecimal digit that is written is the digit of some number below sixteen. -/
theorem mem_hexDigits {n width : Nat} {c : Char} (member : c ∈ hexDigits n width) :
    ∃ k < 16, c = hexDigit k := by
  induction width generalizing n with
  | zero => cases member
  | succ width ih =>
    rw [hexDigits, List.mem_append, List.mem_singleton] at member
    rcases member with earlier | last
    · exact ih earlier
    · exact ⟨n % 16, Nat.mod_lt n (by decide), last⟩

theorem hexNumber_append (digits : Text) (n k : Nat) (read : hexNumber digits = some n)
    (small : k < 16) : hexNumber (digits ++ [hexDigit k]) = some (n * 16 + k) := by
  unfold hexNumber at read ⊢
  rw [List.foldl_append, read]
  simp [hexValue_hexDigit k small]

theorem hexNumber_hexDigits (n width : Nat) :
    hexNumber (hexDigits n width) = some (n % 16 ^ width) := by
  induction width generalizing n with
  | zero =>
    rw [Nat.pow_zero, Nat.mod_one]
    rfl
  | succ width ih =>
    have last : n % 16 < 16 := Nat.mod_lt n (by decide)
    rw [hexDigits, hexNumber_append _ _ _ (ih (n / 16)) last, Nat.pow_succ, Nat.mul_comm (16 ^ width),
      Nat.mod_mul]
    congr 1
    omega

/-- A hexadecimal digit is printable and neither a quote nor a backslash. -/
theorem hexDigit_plain (k : Nat) (small : k < 16) :
    isPrintable (hexDigit k) = true ∧ hexDigit k ≠ '\'' ∧ hexDigit k ≠ '"' ∧ hexDigit k ≠ '\\' := by
  have all : ∀ k : Fin 16, isPrintable (hexDigit k.val) = true ∧ hexDigit k.val ≠ '\'' ∧
      hexDigit k.val ≠ '"' ∧ hexDigit k.val ≠ '\\' := by decide
  exact all ⟨k, small⟩

/-! ## Chunks -/

def IsQuote (q : Char) : Prop := q = '\'' ∨ q = '"'

def Unmarked (q : Char) (text : Text) : Prop :=
  ∀ c ∈ text, isPrintable c = true ∧ c ≠ q ∧ c ≠ '\\'

/-- A piece between quotes that does not end the string. -/
inductive Chunk (q : Char) : Text → Prop where
  | plain {text : Text} (unmarked : Unmarked q text) (nonempty : text ≠ []) : Chunk q text
  | marked {text : Text} (c : Char) (shown : isPrintable c = true) (unmarked : Unmarked q text) :
      Chunk q ('\\' :: c :: text)

theorem not_printable_feed {c : Char} (shown : isPrintable c = true) : c ≠ '\n' := by
  rintro rfl
  exact absurd shown (by decide)

theorem Chunk.ne_nil {q : Char} {text : Text} (chunk : Chunk q text) : text ≠ [] := by
  cases chunk with
  | plain _ nonempty => exact nonempty
  | marked c _ _ => exact List.cons_ne_nil _ _

theorem Chunk.printable {q : Char} {text : Text} (chunk : Chunk q text) :
    ∀ c ∈ text, isPrintable c = true := by
  cases chunk with
  | plain unmarked _ => exact fun c member => (unmarked c member).1
  | marked d shown unmarked =>
    intro c member
    rw [List.mem_cons, List.mem_cons] at member
    rcases member with rfl | rfl | inner
    · decide
    · exact shown
    · exact (unmarked c inner).1

theorem Chunk.head_ne {q c : Char} {text rest : Text} (quote : IsQuote q)
    (chunk : Chunk q text) (front : text = c :: rest) : c ≠ q := by
  cases chunk with
  | plain unmarked _ =>
    subst front
    exact (unmarked c (by simp)).2.1
  | marked d _ _ =>
    cases front
    rcases quote with rfl | rfl <;> decide

namespace Lexer

theorem stringBody_unmarked {q : Char} {text : Text} (unmarked : Unmarked q text) (done rest : Text) :
    stringBody q false done (text ++ rest) = stringBody q false (text.reverse ++ done) rest := by
  induction text generalizing done with
  | nil => rfl
  | cons c text ih =>
    obtain ⟨shown, noQuote, noMark⟩ := unmarked c (by simp)
    have noFeed := not_printable_feed shown
    have inner : Unmarked q text := fun d member => unmarked d (by simp [member])
    rw [List.cons_append, stringBody]
    · simp only [Bool.false_eq_true, if_false, noQuote, noFeed]
      rw [ih inner, List.reverse_cons, List.append_assoc, List.singleton_append]
    · intro d more same
      exact absurd same noMark

theorem stringBody_chunk {q : Char} {text : Text} (chunk : Chunk q text) (done rest : Text) :
    stringBody q false done (text ++ rest) = stringBody q false (text.reverse ++ done) rest := by
  cases chunk with
  | plain unmarked _ => exact stringBody_unmarked unmarked done rest
  | marked c _ unmarked =>
    rename_i text
    rw [List.cons_append, List.cons_append, stringBody, stringBody_unmarked unmarked]
    simp

theorem stringBody_chunks {q : Char} (quote : IsQuote q) (chunks : List Text)
    (all : ∀ text ∈ chunks, Chunk q text) (done rest : Text) :
    stringBody q false done (chunks.flatten ++ q :: rest) =
      some (done.reverse ++ chunks.flatten ++ [q], rest) := by
  induction chunks generalizing done with
  | nil =>
    have noMark : q ≠ '\\' := by
      rcases quote with rfl | rfl <;> decide
    rw [List.flatten_nil, List.nil_append, stringBody]
    · simp
    · intro d more same
      exact absurd same noMark
  | cons text chunks ih =>
    rw [List.flatten_cons, List.append_assoc, stringBody_chunk (all text (by simp)),
      ih fun other member => all other (by simp [member])]
    simp

def EndsString (q : Char) (rest : Text) : Prop := rest.head? ≠ some q

/-- A string between quotes with chunks inside is not taken for one between three quotes. -/
theorem chunks_not_triple {q : Char} (quote : IsQuote q) (chunks : List Text)
    (all : ∀ text ∈ chunks, Chunk q text) (rest : Text) (ends : EndsString q rest) :
    [q, q].isPrefixOf (chunks.flatten ++ q :: rest) = false := by
  cases chunks with
  | nil =>
    cases rest with
    | nil => simp [List.isPrefixOf]
    | cons c rest =>
      have other : q ≠ c := fun same => ends (by rw [same]; rfl)
      simp [List.isPrefixOf, other]
  | cons text chunks =>
    have chunk := all text (by simp)
    cases form : text with
    | nil => exact absurd form chunk.ne_nil
    | cons c more =>
      have other := chunk.head_ne quote form
      simp [List.isPrefixOf, Ne.symm other]

theorem string_chunks {q : Char} (quote : IsQuote q) (chunks : List Text)
    (all : ∀ text ∈ chunks, Chunk q text) (s : State) (letters rest : Text)
    (ends : EndsString q rest) :
    string s letters (q :: (chunks.flatten ++ q :: rest)) =
      .more (s.push .string (letters ++ q :: (chunks.flatten ++ [q])) rest) := by
  unfold string
  simp only [chunks_not_triple quote chunks all rest ends, Bool.false_eq_true, if_false,
    List.length_singleton, List.drop_succ_cons, List.drop_zero, stringBody_chunks quote chunks all]
  simp

theorem cuts_string (opened : List Char) {q : Char} (quote : IsQuote q) (chunks : List Text)
    (all : ∀ text ∈ chunks, Chunk q text) :
    Cuts opened (q :: (chunks.flatten ++ [q])) [(.string, q :: (chunks.flatten ++ [q]))] opened
      (EndsString q) := by
  refine Cuts.ofPush (List.cons_ne_nil _ _) ?_
  intro s rest ends inside
  have front : q :: (chunks.flatten ++ [q]) ++ rest = q :: (chunks.flatten ++ q :: rest) := by simp
  rw [front] at inside
  have taken := string_chunks quote chunks all s [] rest ends
  rw [List.nil_append] at taken
  rw [← taken]
  rcases quote with rfl | rfl <;> exact step_inside inside (by decide) (by decide)

theorem cuts_bytes (opened : List Char) {q : Char} (quote : IsQuote q) (chunks : List Text)
    (all : ∀ text ∈ chunks, Chunk q text) :
    Cuts opened ('b' :: q :: (chunks.flatten ++ [q]))
      [(.string, 'b' :: q :: (chunks.flatten ++ [q]))] opened (EndsString q) := by
  refine Cuts.ofPush (List.cons_ne_nil _ _) ?_
  intro s rest ends inside
  have front : 'b' :: q :: (chunks.flatten ++ [q]) ++ rest = 'b' :: q :: (chunks.flatten ++ q :: rest) := by
    simp
  rw [front] at inside
  have taken := string_chunks quote chunks all s ['b'] rest ends
  rw [List.singleton_append] at taken
  rw [step_inside inside (by decide) (by decide), ← taken]
  unfold word
  rw [inside.rest_eq]
  rcases quote with rfl | rfl <;> rfl

end Lexer

/-! ## Texts -/

theorem quoteFor_isQuote (text : Text) : IsQuote text.quoteFor := by
  unfold Text.quoteFor
  split
  · exact Or.inr rfl
  · exact Or.inl rfl

theorem unmarked_hexDigits {q : Char} (quote : IsQuote q) (n width : Nat) :
    Unmarked q (hexDigits n width) := by
  intro c member
  obtain ⟨k, small, rfl⟩ := mem_hexDigits member
  obtain ⟨shown, noSingle, noDouble, noMark⟩ := hexDigit_plain k small
  rcases quote with rfl | rfl
  · exact ⟨shown, noSingle, noMark⟩
  · exact ⟨shown, noDouble, noMark⟩

theorem unmarked_nil (q : Char) : Unmarked q [] := by
  intro c member
  cases member

theorem chunk_escapeCode {q : Char} (quote : IsQuote q) (n : Nat) : Chunk q (Text.escapeCode n) := by
  unfold Text.escapeCode
  split
  · exact .marked 'x' (by decide) (unmarked_hexDigits quote n 2)
  · split
    · exact .marked 'u' (by decide) (unmarked_hexDigits quote n 4)
    · exact .marked 'U' (by decide) (unmarked_hexDigits quote n 8)

theorem chunk_escapeChar {q : Char} (quote : IsQuote q) (c : Char) : Chunk q (Text.escapeChar q c) := by
  unfold Text.escapeChar
  split
  · rename_i special
    refine .marked c ?_ (unmarked_nil q)
    rcases special with rfl | rfl
    · rcases quote with rfl | rfl <;> decide
    · decide
  · rename_i ordinary
    rw [not_or] at ordinary
    split
    · exact .marked 'n' (by decide) (unmarked_nil q)
    · split
      · exact .marked 'r' (by decide) (unmarked_nil q)
      · split
        · exact .marked 't' (by decide) (unmarked_nil q)
        · split
          · rename_i shown
            refine .plain ?_ (List.cons_ne_nil c [])
            intro d member
            rw [List.mem_singleton] at member
            subst member
            exact ⟨shown, ordinary.1, ordinary.2⟩
          · exact chunk_escapeCode quote c.toNat

theorem chunk_escapePoint {q : Char} (quote : IsQuote q) (p : CodePoint) :
    Chunk q (Text.escapePoint q p) := by
  cases p with
  | char c => exact chunk_escapeChar quote c
  | surrogate half => exact chunk_escapeCode quote _

namespace CodePoint

theorem toNat_lt (p : CodePoint) : p.toNat < 0x110000 := by
  cases p with
  | char c =>
    rcases c.valid with small | ⟨-, small⟩
    · exact Nat.lt_trans small (by decide)
    · exact small
  | surrogate half =>
    have small := half.isLt
    rw [toNat]
    omega

theorem ofNat_toNat (p : CodePoint) : ofNat p.toNat = p := by
  cases p with
  | char c =>
    have noHalf : ¬(0xD800 ≤ c.toNat ∧ c.toNat < 0xE000) := by
      rintro ⟨above, below⟩
      rcases c.valid with small | ⟨large, -⟩
      · exact absurd small (Nat.not_lt.mpr above)
      · exact absurd large (Nat.not_lt.mpr (Nat.le_pred_of_lt below))
    rw [toNat, ofNat, dif_neg noHalf, Char.ofNat_toNat]
  | surrogate half =>
    have inside : 0xD800 ≤ (surrogate half).toNat ∧ (surrogate half).toNat < 0xE000 := by
      have small := half.isLt
      rw [toNat]
      omega
    rw [ofNat, dif_pos inside]
    simp [toNat]

theorem text?_chars (text : Text) : text? (text.map .char) = some text := by
  induction text with
  | nil => rfl
  | cons c rest ih =>
    rw [text?] at ih
    simp [text?, char?, ih]

theorem eq_map_of_text? {points : List CodePoint} {text : Text} (isText : text? points = some text) :
    points = text.map .char := by
  induction points generalizing text with
  | nil =>
    cases isText
    rfl
  | cons p rest ih =>
    rw [text?, List.mapM_cons] at isText
    obtain ⟨c, isChar, isText⟩ := Option.bind_eq_some_iff.mp isText
    obtain ⟨more, isMore, isText⟩ := Option.bind_eq_some_iff.mp isText
    cases isText
    cases p with
    | char d =>
      cases isChar
      rw [ih isMore]
      rfl
    | surrogate half => cases isChar

end CodePoint

namespace Scalar

theorem ofPoints_chars (text : Text) : ofPoints (text.map .char) = .str text := by
  unfold ofPoints
  split
  · rename_i other isText
    rw [CodePoint.text?_chars] at isText
    cases isText
    rfl
  · rename_i noText
    rw [CodePoint.text?_chars] at noText
    cases noText

theorem ofPoints_codes (s : Codes) : ofPoints s.points = .codes s := by
  unfold ofPoints
  split
  · rename_i text isText
    rw [s.noText] at isText
    cases isText
  · rfl

/-- A string is a text, or it holds halves of surrogate pairs. -/
theorem ofPoints_cases (points : List CodePoint) :
    (∃ text, points = text.map .char ∧ ofPoints points = .str text) ∨ ∃ s, ofPoints points = .codes s := by
  cases isText : CodePoint.text? points with
  | some text =>
    have chars := CodePoint.eq_map_of_text? isText
    exact .inl ⟨text, chars, chars ▸ ofPoints_chars text⟩
  | none => exact .inr ⟨⟨points, isText⟩, ofPoints_codes ⟨points, isText⟩⟩

end Scalar

/-- A text is quoted as its characters are. -/
theorem quotedPoints_chars (text : Text) : Text.quotedPoints (text.map .char) = Text.quoted text := by
  have chars : (text.map CodePoint.char).filterMap CodePoint.char? = text := by
    simp [List.filterMap_map, Function.comp_def, CodePoint.char?]
  simp [Text.quotedPoints, Text.quoted, chars, List.flatMap_map, Text.escapePoint]

namespace StringLiteral

theorem unescape_hex {letter : Char} {width : Nat}
    (form : letter = 'x' ∧ width = 2 ∨ letter = 'u' ∧ width = 4 ∨ letter = 'U' ∧ width = 8)
    (fuel place n : Nat) (rest : Text) (fits : n < 16 ^ width) (small : n < 0x110000) :
    unescape (fuel + 1) place ('\\' :: letter :: (hexDigits n width ++ rest)) =
      (unescape fuel (place + 2 + width) rest).map (.ofNat n :: ·) := by
  have front : (hexDigits n width ++ rest).take width = hexDigits n width := by
    exact List.take_left' (hexDigits_length n width)
  have behind : (hexDigits n width ++ rest).drop width = rest := by
    exact List.drop_left' (hexDigits_length n width)
  have digits : (hexDigits n width).takeWhile (fun d => (hexValue d).isSome) = hexDigits n width := by
    have found : ∀ c ∈ hexDigits n width, (hexValue c).isSome = true := by
      intro c member
      obtain ⟨k, below, rfl⟩ := mem_hexDigits member
      rw [hexValue_hexDigit k below]
      rfl
    simpa using (Lexer.takeWhile_append_of_stop [] found (by simp)).1
  have read : (hexNumber (hexDigits n width)).getD 0 = n := by
    rw [hexNumber_hexDigits, Option.getD_some, Nat.mod_eq_of_lt fits]
  have unknown : simpleEscape letter = none := by
    rcases form with ⟨rfl, -⟩ | ⟨rfl, -⟩ | ⟨rfl, -⟩ <;> rfl
  conv =>
    lhs
    unfold unescape
  simp only [unknown]
  rcases form with ⟨rfl, rfl⟩ | ⟨rfl, rfl⟩ | ⟨rfl, rfl⟩ <;>
    simp only [Char.reduceBEq, Bool.false_eq_true, if_false, if_true, front, behind, digits, read,
      hexDigits_length, small, Nat.lt_irrefl]

theorem unescape_plain (fuel place : Nat) (c : Char) (rest : Text) (noMark : c ≠ '\\') :
    unescape (fuel + 1) place (c :: rest) = (unescape fuel (place + weight c) rest).map (.char c :: ·) := by
  rw [unescape]
  intro d more same
  exact absurd same noMark

theorem unescape_simple (fuel place : Nat) (c e : Char) (rest : Text)
    (known : simpleEscape c = some e) :
    unescape (fuel + 1) place ('\\' :: c :: rest) = (unescape fuel (place + 2) rest).map (.char e :: ·) := by
  conv =>
    lhs
    unfold unescape
  simp only [known]

theorem unescape_escapeCode (fuel place : Nat) (p : CodePoint) (rest : Text) :
    ∃ next, unescape (fuel + 1) place (Text.escapeCode p.toNat ++ rest) =
      (unescape fuel next rest).map (p :: ·) := by
  have below := p.toNat_lt
  have same := p.ofNat_toNat
  unfold Text.escapeCode
  split
  · rename_i small
    have read := unescape_hex (Or.inl ⟨rfl, rfl⟩) fuel place p.toNat rest small below
    rw [same] at read
    exact ⟨_, read⟩
  · split
    · rename_i small
      have read := unescape_hex (Or.inr (Or.inl ⟨rfl, rfl⟩)) fuel place p.toNat rest small below
      rw [same] at read
      exact ⟨_, read⟩
    · have read := unescape_hex (Or.inr (Or.inr ⟨rfl, rfl⟩)) fuel place p.toNat rest (by omega) below
      rw [same] at read
      exact ⟨_, read⟩

theorem unescape_escapeChar {q : Char} (quote : IsQuote q) (fuel place : Nat) (c : Char)
    (rest : Text) : ∃ next, unescape (fuel + 1) place (Text.escapeChar q c ++ rest) =
      (unescape fuel next rest).map (.char c :: ·) := by
  unfold Text.escapeChar
  split
  · rename_i special
    refine ⟨place + 2, unescape_simple fuel place c c rest ?_⟩
    rcases special with rfl | rfl
    · rcases quote with rfl | rfl <;> rfl
    · rfl
  · rename_i ordinary
    rw [not_or] at ordinary
    split
    · rename_i feed
      subst feed
      exact ⟨place + 2, unescape_simple fuel place 'n' '\n' rest rfl⟩
    · split
      · rename_i back
        subst back
        exact ⟨place + 2, unescape_simple fuel place 'r' '\r' rest rfl⟩
      · split
        · rename_i tab
          subst tab
          exact ⟨place + 2, unescape_simple fuel place 't' '\t' rest rfl⟩
        · split
          · exact ⟨place + weight c, unescape_plain fuel place c rest ordinary.2⟩
          · exact unescape_escapeCode fuel place (.char c) rest

theorem unescape_escaped {q : Char} (quote : IsQuote q) (points : List CodePoint) (fuel place : Nat)
    (enough : points.length < fuel) :
    unescape fuel place (points.flatMap (Text.escapePoint q)) = .ok points := by
  induction points generalizing fuel place with
  | nil =>
    cases fuel with
    | zero => cases enough
    | succ fuel => rfl
  | cons p points ih =>
    cases fuel with
    | zero => cases enough
    | succ fuel =>
      rw [List.length_cons] at enough
      have first : ∃ next, unescape (fuel + 1) place
          (Text.escapePoint q p ++ points.flatMap (Text.escapePoint q)) =
          (unescape fuel next (points.flatMap (Text.escapePoint q))).map (p :: ·) := by
        cases p with
        | char c => exact unescape_escapeChar quote fuel place c _
        | surrogate half => exact unescape_escapeCode fuel place (.surrogate half) _
      obtain ⟨next, read⟩ := first
      rw [List.flatMap_cons, read, ih fuel next (by omega)]
      rfl

end StringLiteral

theorem length_le_flatMap {α : Type} (f : α → Text) (nonempty : ∀ a, f a ≠ []) (items : List α) :
    items.length ≤ (items.flatMap f).length := by
  induction items with
  | nil => exact Nat.le_refl 0
  | cons a items ih =>
    have positive := List.length_pos_iff.mpr (nonempty a)
    rw [List.flatMap_cons, List.length_append, List.length_cons]
    omega

namespace StringLiteral

theorem body_ofToken {q : Char} (quote : IsQuote q) (chunks : List Text)
    (all : ∀ text ∈ chunks, Chunk q text) (letters : Text)
    (plain : ∀ c ∈ letters, c ≠ '\'' ∧ c ≠ '"') (t : Token)
    (form : t.text = letters ++ q :: (chunks.flatten ++ [q])) :
    let literal := ofToken t
    literal.body = chunks.flatten ∧
      literal.isBytes = letters.any (fun c => c.toLower == 'b') ∧
      literal.isRaw = letters.any (fun c => c.toLower == 'r') ∧
      literal.isFormatted = letters.any (fun c => c.toLower == 'f') ∧
      literal.isMarked = decide (letters.head? = some 'u') := by
  have isQuote : (q == '\'' || q == '"') = true := by
    rcases quote with rfl | rfl <;> rfl
  have front : ∀ c ∈ letters, (!(c == '\'' || c == '"')) = true := by
    intro c member
    obtain ⟨noSingle, noDouble⟩ := plain c member
    simp [noSingle, noDouble]
  have stop : ∀ c ∈ (q :: (chunks.flatten ++ [q])).head?, (!(c == '\'' || c == '"')) = false := by
    intro c member
    cases member
    rw [isQuote]
    rfl
  obtain ⟨taken, dropped⟩ := Lexer.takeWhile_append_of_stop _ front stop
  have head : ∀ c more, chunks.flatten = c :: more → c ≠ q := by
    intro c more shape
    cases chunks with
    | nil => cases shape
    | cons text chunks =>
      have chunk := all text (by simp)
      cases front : text with
      | nil => exact absurd front chunk.ne_nil
      | cons d tail =>
        rw [front, List.flatten_cons, List.cons_append] at shape
        exact (List.cons.inj shape).1 ▸ chunk.head_ne quote front
  unfold ofToken
  simp only [form, taken, dropped, and_true]
  cases shape : chunks.flatten with
  | nil => rfl
  | cons c more =>
    have other := head c more shape
    cases behind : more ++ [q] with
    | nil => simp at behind
    | cons d tail =>
      have single : ¬ (q = c ∧ c = d ∧ 6 ≤ (q :: c :: d :: tail).length) := by
        rintro ⟨same, -⟩
        exact other same.symm
      simp only [List.cons_append, behind, if_neg single]
      rw [← behind]
      simp

end StringLiteral

theorem quoted_chunks (points : List CodePoint) : ∃ (quote : Char) (chunks : List Text),
    IsQuote quote ∧ Text.quotedPoints points = quote :: (chunks.flatten ++ [quote]) ∧
      chunks.flatten = points.flatMap (Text.escapePoint quote) ∧ ∀ chunk ∈ chunks, Chunk quote chunk := by
  let quote := Text.quoteFor (points.filterMap CodePoint.char?)
  have isQuote : IsQuote quote := quoteFor_isQuote _
  refine ⟨quote, points.map (Text.escapePoint quote), isQuote, ?_, ?_, ?_⟩
  · rw [Text.quotedPoints, List.flatMap_def]
  · rw [List.flatMap_def]
  · intro chunk member
    obtain ⟨p, -, rfl⟩ := List.mem_map.mp member
    exact chunk_escapePoint isQuote p

theorem text_ofToken_quoted (points : List CodePoint) (t : Token)
    (form : t.text = Text.quotedPoints points) :
    (StringLiteral.ofToken t).isBytes = false ∧ (StringLiteral.ofToken t).isFormatted = false ∧
      (StringLiteral.ofToken t).isMarked = false ∧ (StringLiteral.ofToken t).text = .ok points := by
  obtain ⟨quote, chunks, isQuote, quoted, escaped, all⟩ := quoted_chunks points
  rw [quoted] at form
  obtain ⟨body, isBytes, isRaw, isFormatted, isMarked⟩ :=
    StringLiteral.body_ofToken isQuote chunks all [] (by simp) t form
  refine ⟨isBytes, isFormatted, isMarked, ?_⟩
  have nonempty : ∀ p, Text.escapePoint quote p ≠ [] := fun p => (chunk_escapePoint isQuote p).ne_nil
  have long := length_le_flatMap (Text.escapePoint quote) nonempty points
  unfold StringLiteral.text
  rw [isRaw, body, escaped]
  exact StringLiteral.unescape_escaped isQuote points _ 0 (by omega)

/-! ## Bytes -/

theorem byteQuoteFor_isQuote (bytes : List UInt8) : IsQuote (byteQuoteFor bytes) := by
  unfold byteQuoteFor
  split
  · exact Or.inr rfl
  · exact Or.inl rfl

theorem toNat_ofNat_byte (byte : UInt8) : (Char.ofNat byte.toNat).toNat = byte.toNat := by
  have small : byte.toNat < 256 := byte.toNat_lt
  have valid : byte.toNat.isValidChar := Or.inl (by omega)
  unfold Char.ofNat
  rw [dif_pos valid]
  rfl

theorem chunk_escapeByte {q : Char} (quote : IsQuote q) (byte : UInt8) :
    Chunk q (escapeByte q byte) := by
  unfold escapeByte
  simp only
  split
  · rename_i special
    refine .marked _ ?_ (unmarked_nil q)
    rcases special with same | same
    · rw [same]
      rcases quote with rfl | rfl <;> decide
    · rw [same]
      decide
  · rename_i ordinary
    rw [not_or] at ordinary
    split
    · exact .marked 'n' (by decide) (unmarked_nil q)
    · split
      · exact .marked 'r' (by decide) (unmarked_nil q)
      · split
        · exact .marked 't' (by decide) (unmarked_nil q)
        · split
          · rename_i shown
            refine .plain ?_ (List.cons_ne_nil _ [])
            intro d member
            rw [List.mem_singleton] at member
            subst member
            refine ⟨?_, ordinary.1, ordinary.2⟩
            unfold isPrintable
            rw [toNat_ofNat_byte, if_pos shown.2, decide_eq_true shown.1]
          · exact .marked 'x' (by decide) (unmarked_hexDigits quote byte.toNat 2)

theorem escapeByte_ascii {q : Char} (quote : IsQuote q) (byte : UInt8) :
    ∀ c ∈ escapeByte q byte, c.toNat < 128 := by
  have digits : ∀ c ∈ hexDigits byte.toNat 2, c.toNat < 128 := by
    intro c member
    obtain ⟨k, small, rfl⟩ := mem_hexDigits member
    have all : ∀ k : Fin 16, (hexDigit k.val).toNat < 128 := by decide
    exact all ⟨k, small⟩
  have quoteSmall : q.toNat < 128 := by
    rcases quote with rfl | rfl <;> decide
  unfold escapeByte
  simp only
  split
  · rename_i special
    intro c member
    simp only [List.mem_cons, List.not_mem_nil, or_false] at member
    rcases member with rfl | rfl
    · decide
    · rcases special with same | same
      · rw [same]
        exact quoteSmall
      · rw [same]
        decide
  · split
    · simp
    · split
      · simp
      · split
        · simp
        · split
          · rename_i shown
            intro c member
            rw [List.mem_singleton] at member
            rw [member, toNat_ofNat_byte]
            omega
          · intro c member
            rw [List.mem_cons, List.mem_cons] at member
            rcases member with rfl | rfl | inner
            · decide
            · decide
            · exact digits c inner

namespace StringLiteral

theorem unescapeBytes_simple (fuel place : Nat) (c e : Char) (rest : Text)
    (known : simpleEscape c = some e) :
    unescapeBytes (fuel + 1) place ('\\' :: c :: rest) =
      (unescapeBytes fuel (place + 2) rest).map (e.toNat.toUInt8 :: ·) := by
  conv =>
    lhs
    unfold unescapeBytes
  simp only [known]

theorem unescapeBytes_hex (fuel place : Nat) (byte : UInt8) (rest : Text) :
    unescapeBytes (fuel + 1) place ('\\' :: 'x' :: (hexDigits byte.toNat 2 ++ rest)) =
      (unescapeBytes fuel (place + 4) rest).map (byte :: ·) := by
  have small : byte.toNat < 256 := byte.toNat_lt
  have digits : hexDigits byte.toNat 2 = [hexDigit (byte.toNat / 16 % 16), hexDigit (byte.toNat % 16)] :=
    rfl
  have read : ([hexDigit (byte.toNat / 16 % 16), hexDigit (byte.toNat % 16)].mapM hexValue) =
      some [byte.toNat / 16 % 16, byte.toNat % 16] := by
    simp [List.mapM_cons, hexValue_hexDigit _ (Nat.mod_lt _ (show 0 < 16 by decide))]
  have whole : (byte.toNat / 16 % 16 * 16 + byte.toNat % 16).toUInt8 = byte := by
    rw [show byte.toNat / 16 % 16 * 16 + byte.toNat % 16 = byte.toNat by omega]
    exact UInt8.ofNat_toNat
  have unknown : simpleEscape 'x' = none := rfl
  conv =>
    lhs
    unfold unescapeBytes
  rw [digits]
  simp only [unknown, Char.reduceBEq, Bool.false_eq_true, if_false, if_true, List.cons_append,
    List.nil_append, List.take_succ_cons, List.take_zero, List.drop_succ_cons, List.drop_zero, read,
    whole]

theorem unescapeBytes_plain (fuel place : Nat) (c : Char) (rest : Text) (noMark : c ≠ '\\') :
    unescapeBytes (fuel + 1) place (c :: rest) =
      (unescapeBytes fuel (place + 1) rest).map (c.toNat.toUInt8 :: ·) := by
  rw [unescapeBytes]
  intro d more same
  exact absurd same noMark

theorem unescapeBytes_escapeByte {q : Char} (quote : IsQuote q) (fuel place : Nat) (byte : UInt8)
    (rest : Text) : ∃ next, unescapeBytes (fuel + 1) place (escapeByte q byte ++ rest) =
      (unescapeBytes fuel next rest).map (byte :: ·) := by
  have code := toNat_ofNat_byte byte
  have same : (Char.ofNat byte.toNat).toNat.toUInt8 = byte := by
    rw [code]
    exact UInt8.ofNat_toNat
  have control : ∀ c e : Char, Char.ofNat byte.toNat = e → simpleEscape c = some e →
      ∃ next, unescapeBytes (fuel + 1) place ('\\' :: c :: rest) =
        (unescapeBytes fuel next rest).map (byte :: ·) := by
    intro c e isChar known
    refine ⟨place + 2, ?_⟩
    rw [unescapeBytes_simple fuel place c e rest known, ← isChar, same]
  unfold escapeByte
  simp only
  split
  · rename_i special
    refine control _ _ rfl ?_
    rcases special with isChar | isChar
    · rw [isChar]
      rcases quote with rfl | rfl <;> rfl
    · rw [isChar]
      rfl
  · rename_i ordinary
    rw [not_or] at ordinary
    split
    · rename_i feed
      exact control 'n' '\n' feed rfl
    · split
      · rename_i back
        exact control 'r' '\r' back rfl
      · split
        · rename_i tab
          exact control 't' '\t' tab rfl
        · split
          · refine ⟨place + 1, ?_⟩
            have read := unescapeBytes_plain fuel place _ rest ordinary.2
            rw [same] at read
            exact read
          · exact ⟨place + 4, unescapeBytes_hex fuel place byte rest⟩

theorem unescapeBytes_escaped {q : Char} (quote : IsQuote q) (bytes : List UInt8) (fuel place : Nat)
    (enough : bytes.length < fuel) :
    unescapeBytes fuel place (bytes.flatMap (escapeByte q)) = .ok bytes := by
  induction bytes generalizing fuel place with
  | nil =>
    cases fuel with
    | zero => cases enough
    | succ fuel => rfl
  | cons byte bytes ih =>
    cases fuel with
    | zero => cases enough
    | succ fuel =>
      rw [List.length_cons] at enough
      obtain ⟨next, read⟩ :=
        unescapeBytes_escapeByte quote fuel place byte (bytes.flatMap (escapeByte q))
      rw [List.flatMap_cons, read, ih fuel next (by omega)]
      rfl

end StringLiteral

theorem quotedBytes_chunks (bytes : List UInt8) : ∃ chunks : List Text,
    quotedBytes bytes = 'b' :: byteQuoteFor bytes :: (chunks.flatten ++ [byteQuoteFor bytes]) ∧
      chunks.flatten = bytes.flatMap (escapeByte (byteQuoteFor bytes)) ∧
      ∀ chunk ∈ chunks, Chunk (byteQuoteFor bytes) chunk := by
  refine ⟨bytes.map (escapeByte (byteQuoteFor bytes)), ?_, ?_, ?_⟩
  · rw [quotedBytes, List.flatMap_def]
  · rw [List.flatMap_def]
  · intro chunk member
    obtain ⟨byte, -, rfl⟩ := List.mem_map.mp member
    exact chunk_escapeByte (byteQuoteFor_isQuote bytes) byte

theorem bytes_ofToken_quotedBytes (bytes : List UInt8) (t : Token)
    (form : t.text = quotedBytes bytes) :
    (StringLiteral.ofToken t).isBytes = true ∧ (StringLiteral.ofToken t).bytes = .ok bytes := by
  obtain ⟨chunks, quoted, escaped, all⟩ := quotedBytes_chunks bytes
  have quote := byteQuoteFor_isQuote bytes
  rw [quoted] at form
  obtain ⟨body, isBytes, isRaw, -, -⟩ :=
    StringLiteral.body_ofToken quote chunks all ['b'] (by simp) t form
  refine ⟨isBytes, ?_⟩
  have nonempty : ∀ byte, escapeByte (byteQuoteFor bytes) byte ≠ [] :=
    fun byte => (chunk_escapeByte quote byte).ne_nil
  have long := length_le_flatMap (escapeByte (byteQuoteFor bytes)) nonempty bytes
  have ascii : (bytes.flatMap (escapeByte (byteQuoteFor bytes))).any (fun c => 128 ≤ c.toNat) = false := by
    rw [List.any_eq_false]
    intro c member
    obtain ⟨byte, -, inner⟩ := List.mem_flatMap.mp member
    have small := escapeByte_ascii quote byte c inner
    simp only [decide_eq_true_eq]
    omega
  unfold StringLiteral.bytes
  rw [isRaw, body, escaped, ascii]
  exact StringLiteral.unescapeBytes_escaped quote bytes _ 0 (by omega)

end MacroExpand
