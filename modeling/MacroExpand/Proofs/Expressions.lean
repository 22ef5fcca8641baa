import MacroExpand.Proofs.Tokens
import MacroExpand.Syntax.Parser

/-!
# Expressions begin with a character

A rule for expressions takes a token first that is no end of a line and no change of an indentation.  What it gives
stands at a place, where a token of that sort begins: a node begins with the first token of its rule, and in brackets
a tree can be passed on that begins with a later one.  A name that is passed on ends with one of the tokens that were
taken.
-/

set_option autoImplicit false

namespace MacroExpand

/-- Whether nodes of some kind stand at a place of their own.  Lists of parameters, items, cases, files and gaps in
lists do not. -/
@[simp] def Kind.isPlaced : Kind → Bool
  | .module _ | .arguments | .withItem | .matchCase | .absent => false
  | _ => true

@[simp] def Kind.isName : Kind → Bool
  | .name _ _ => true
  | _ => false

def Mark.start (m : Mark) : Nat ×ₗ Nat := toLex (m.line, m.column)

def Mark.stop (m : Mark) : Nat ×ₗ Nat := toLex (m.endLine, m.endColumn)

def Cursor.stop (c : Cursor) : Nat ×ₗ Nat := toLex (c.endLine, c.endColumn)

namespace Parser

variable {α β : Type}

/-! ## Steps that succeed -/

theorem bind_inv {p : Parser α} {f : α → Parser β} {o : ParseOptions} {c c' : Cursor} {b : β}
    (h : (p >>= f) o c = some (b, c')) : ∃ a c₁, p o c = some (a, c₁) ∧ f a o c₁ = some (b, c') := by
  change Parser.bind p f o c = _ at h
  unfold Parser.bind at h
  split at h
  case h_1 a c₁ hfirst => exact ⟨a, c₁, hfirst, h⟩
  case h_2 => cases h

theorem optional_inv {p : Parser α} {o : ParseOptions} {c c' : Cursor} {found : Option α}
    (h : Parser.optional p o c = some (found, c')) :
    (∃ a, found = some a ∧ p o c = some (a, c')) ∨ found = none ∧ c' = c := by
  unfold Parser.optional Parser.orElse at h
  split at h
  · cases h; exact .inr ⟨rfl, rfl⟩
  · obtain ⟨a, c₁, hp, hpure⟩ := bind_inv h
    cases hpure
    exact .inl ⟨a, rfl, hp⟩

theorem peek_inv {o : ParseOptions} {c c' : Cursor} {t : Token} (h : Parser.peek o c = some (t, c')) :
    ∃ rest, c.rest = t :: rest ∧ c' = c := by
  unfold Parser.peek at h
  split at h
  case h_1 t rest heq => cases h; exact ⟨rest, heq, rfl⟩
  case h_2 => cases h

theorem here_inv {o : ParseOptions} {c c' : Cursor} {start : Mark}
    (h : Parser.here o c = some (start, c')) : ∃ first following, c.rest = first :: following ∧
      start = { line := first.line, column := first.column } ∧ c' = c := by
  obtain ⟨first, c₁, hpeek, last⟩ := bind_inv h
  obtain ⟨following, heq, rfl⟩ := peek_inv hpeek
  cases last
  exact ⟨first, following, heq, rfl, rfl⟩

theorem next_inv {o : ParseOptions} {c c' : Cursor} {t : Token} (h : Parser.next o c = some (t, c')) :
    c.rest = t :: c'.rest := by
  unfold Parser.next at h
  split at h
  case h_1 => cases h
  case h_2 first rest heq => split at h <;> cases h <;> exact heq

/-- The place moves behind a token that ends behind something, and stays where it is otherwise. -/
theorem next_stop {o : ParseOptions} {c c' : Cursor} {t : Token} (h : Parser.next o c = some (t, c')) :
    if t.kind.isInked then (c'.endLine, c'.endColumn) = (t.endLine, t.endColumn)
    else (c'.endLine, c'.endColumn) = (c.endLine, c.endColumn) := by
  unfold Parser.next at h
  split at h
  case h_1 => cases h
  case h_2 first rest heq =>
    split at h <;> cases h
    case h_5 noFeed noIndent noDedent noFinish =>
      have isInked : t.kind.isInked = true := by
        unfold TokenKind.isInked
        split <;> simp_all
      rw [if_pos isInked]
    all_goals
      rename_i isKind
      simp [isKind]

theorem takeIf_next {fits : Token → Bool} {o : ParseOptions} {c c' : Cursor} {t : Token}
    (h : takeIf fits o c = some (t, c')) : Parser.next o c = some (t, c') ∧ fits t = true := by
  obtain ⟨first, c₁, hpeek, last⟩ := bind_inv h
  obtain ⟨following, heq, rfl⟩ := peek_inv hpeek
  split at last
  case isFalse => cases last
  case isTrue isFit =>
    obtain ⟨rfl, -⟩ := List.cons.inj (heq.symm.trans (next_inv last))
    exact ⟨last, isFit⟩

theorem takeIf_inv {fits : Token → Bool} {o : ParseOptions} {c c' : Cursor} {t : Token}
    (h : takeIf fits o c = some (t, c')) : c.rest = t :: c'.rest ∧ fits t = true :=
  ⟨next_inv (takeIf_next h).1, (takeIf_next h).2⟩

/-- A repetition that finds nothing takes nothing. -/
theorem many_nil_inv {p : Parser α} {o : ParseOptions} {c c' : Cursor}
    (h : Parser.many p o c = some ([], c')) : c' = c := by
  have longer : ∀ (fuel : Nat) (done : List α) (c : Cursor) (found : List α),
      Parser.repeatFrom p fuel done o c = some (found, c') → done.length ≤ found.length := by
    intro fuel
    induction fuel with
    | zero =>
      intro done c found run
      cases run
      simp
    | succ fuel ih =>
      intro done c found run
      obtain ⟨next, c₁, step, run⟩ := bind_inv run
      cases next with
      | none => cases run; simp
      | some a => exact Nat.le_trans (Nat.le_succ _) (ih _ _ _ run)
  unfold Parser.many Parser.repeatFrom at h
  obtain ⟨next, c₁, step, run⟩ := bind_inv h
  rcases optional_inv step with ⟨a, rfl, -⟩ | ⟨rfl, rfl⟩
  · have some := longer _ _ _ _ run
    simp at some
  · cases run
    rfl

/-! ## Places -/

def EndsBefore (tokens rest : List Token) (place : Nat × Nat) : Prop :=
  ∃ front u back, tokens = front ++ u :: back ∧ rest <:+ back ∧ u.kind.isSolid = true ∧
    (u.endLine, u.endColumn) = place

/-- A tree that stands at a place and begins where one of some tokens begins with a character.  If it is a name, then
it ends with one of those in front of the rest. -/
structure Stands (tokens rest : List Token) (t : Tree) : Prop where
  isPlaced : t.kind.isPlaced = true
  begins : ∃ u ∈ tokens, u.kind.isSolid = true ∧ u.line = t.mark.line ∧ u.column = t.mark.column
  name : t.kind.isName = true → EndsBefore tokens rest (t.mark.endLine, t.mark.endColumn)

theorem Stands.mono {tokens more rest rest' : List Token} {t : Tree} (stands : Stands tokens rest t)
    (within : tokens <:+ more) (onward : rest' <:+ rest) : Stands more rest' t := by
  obtain ⟨isPlaced, ⟨u, member, begins⟩, name⟩ := stands
  refine ⟨isPlaced, ⟨u, within.subset member, begins⟩, fun isName => ?_⟩
  obtain ⟨front, u, back, rfl, suffix, ends⟩ := name isName
  obtain ⟨before, rfl⟩ := within
  exact ⟨before ++ front, u, back, by simp, onward.trans suffix, ends⟩

def SolidHead (tokens : List Token) : Prop := ∃ u rest, tokens = u :: rest ∧ u.kind.isSolid = true

def IsStart (tokens : List Token) (m : Mark) : Prop :=
  ∃ u ∈ tokens, u.kind.isSolid = true ∧ u.line = m.line ∧ u.column = m.column

/-! ## Steps that take nothing -/

def Still (p : Parser α) : Prop := ∀ (o : ParseOptions) (c c' : Cursor) (a : α), p o c = some (a, c') → c' = c

theorem Still.pure (a : α) : Still (Pure.pure a : Parser α) := by
  intro o c c' b run
  cases run
  rfl

theorem Still.bind {p : Parser α} {f : α → Parser β} (first : p.Still) (rest : ∀ a, (f a).Still) :
    (p >>= f).Still := by
  intro o c c' b run
  obtain ⟨a, c₁, begun, run⟩ := bind_inv run
  rw [rest a o c₁ c' b run, first o c c₁ a begun]

theorem Still.peek : Parser.peek.Still := by
  intro o c c' t run
  obtain ⟨-, -, rfl⟩ := peek_inv run
  rfl

theorem Still.ahead (p : Parser α) : (Parser.ahead p).Still := by
  intro o c c' a run
  unfold Parser.ahead at run
  split at run
  · cases run; rfl
  · cases run

theorem Still.test (p : Parser α) : (Parser.test p).Still := by
  intro o c c' a run
  unfold Parser.test Parser.orElse at run
  split at run
  · exact Still.pure _ o c c' a run
  · exact ((Still.ahead p).bind fun _ => .pure _) o c c' a run

theorem Still.atOp (text : String) : (Parser.atOp text).Still := Still.peek.bind fun _ => .pure _

theorem Still.atWord (text : String) : (Parser.atWord text).Still := Still.peek.bind fun _ => .pure _

theorem Still.guardThat (condition : Bool) : (Parser.guardThat condition).Still := by
  unfold Parser.guardThat
  split
  · exact .pure ()
  · exact fun _ _ _ _ run => by cases run

/-! ## Steps that go forward -/

def Moves (p : Parser α) : Prop :=
  ∀ (o : ParseOptions) (c c' : Cursor) (a : α), p o c = some (a, c') → c'.rest <:+ c.rest

namespace Moves

theorem still {p : Parser α} (still : p.Still) : p.Moves := by
  intro o c c' a run
  rw [still o c c' a run]

theorem bind {p : Parser α} {f : α → Parser β} (first : p.Moves) (rest : ∀ a, (f a).Moves) : (p >>= f).Moves := by
  intro o c c' b run
  obtain ⟨a, c₁, begun, run⟩ := bind_inv run
  exact (rest a o c₁ c' b run).trans (first o c c₁ a begun)

theorem next : Parser.next.Moves := by
  intro o c c' t run
  rw [next_inv run]
  exact List.suffix_cons t c'.rest

theorem takeIf (fits : Token → Bool) : (Parser.takeIf fits).Moves := by
  intro o c c' t run
  rw [(takeIf_inv run).1]
  exact List.suffix_cons t c'.rest

theorem op (text : String) : (Parser.op text).Moves := takeIf _

theorem guardThat (condition : Bool) : (Parser.guardThat condition).Moves := still (.guardThat condition)

theorem takeOp (text : String) : (Parser.takeOp text).Moves := by
  refine (still (.atOp text)).bind fun found => ?_
  split
  · exact next.bind fun _ => still (.pure true)
  · exact still (.pure false)

end Moves

/-! ## Steps that take a token first -/

def Leads (p : Parser α) : Prop :=
  ∀ (o : ParseOptions) (c c' : Cursor) (a : α), p o c = some (a, c') → SolidHead c.rest

/-- A step that takes a token that begins with a character first, or says that it takes none. -/
structure Tries (p : Parser Bool) : Prop where
  taken : ∀ (o : ParseOptions) (c c' : Cursor), p o c = some (true, c') → SolidHead c.rest
  still : ∀ (o : ParseOptions) (c c' : Cursor), p o c = some (false, c') → c' = c

theorem isSolid_of_isOp {t : Token} {text : String} (isOp : t.isOp text = true) : t.kind.isSolid = true := by
  rw [Token.isOp, Bool.and_eq_true, decide_eq_true_eq] at isOp
  rw [isOp.1]
  rfl

theorem isSolid_of_isWord {t : Token} {text : String} (isWord : t.isWord text = true) : t.kind.isSolid = true := by
  rw [Token.isWord, Bool.and_eq_true, decide_eq_true_eq] at isWord
  rw [isWord.1]
  rfl

theorem isSolid_of_isFreeName {t : Token} (isName : isFreeName t = true) : t.kind.isSolid = true := by
  rw [isFreeName, Bool.or_eq_true, Bool.and_eq_true, decide_eq_true_eq, decide_eq_true_eq] at isName
  rcases isName with isName | ⟨isName, -⟩ <;> rw [isName] <;> rfl

namespace Leads

theorem takeIf {fits : Token → Bool} (solid : ∀ t, fits t = true → t.kind.isSolid = true) :
    (Parser.takeIf fits).Leads := by
  intro o c c' t run
  obtain ⟨whole, isFit⟩ := takeIf_inv run
  exact ⟨t, c'.rest, whole, solid t isFit⟩

theorem op (text : String) : (Parser.op text).Leads := takeIf fun _ => isSolid_of_isOp

theorem word (text : String) : (Parser.word text).Leads := takeIf fun _ => isSolid_of_isWord

theorem kind {k : TokenKind} (solid : k.isSolid = true) : (Parser.kind k).Leads :=
  takeIf fun t isKind => (of_decide_eq_true isKind : t.kind = k) ▸ solid

theorem fail : (Parser.fail : Parser α).Leads := fun _ _ _ _ run => by cases run

theorem bind {p : Parser α} {f : α → Parser β} (first : p.Leads) : (p >>= f).Leads := by
  intro o c c' b run
  obtain ⟨a, c₁, begun, -⟩ := bind_inv run
  exact first o c c₁ a begun

theorem name : Parser.name.Leads := (takeIf fun _ => isSolid_of_isFreeName).bind

theorem ite {condition : Prop} [Decidable condition] {p q : Parser α} (left : p.Leads) (right : q.Leads) :
    (if condition then p else q).Leads := by
  split
  · exact left
  · exact right

theorem still {p : Parser α} {f : α → Parser β} (first : p.Still) (rest : ∀ a, (f a).Leads) : (p >>= f).Leads := by
  intro o c c' b run
  obtain ⟨a, c₁, begun, last⟩ := bind_inv run
  obtain rfl := first o c c₁ a begun
  exact rest a o c₁ c' b last

theorem tries {p : Parser Bool} {f : Bool → Parser β} (first : Tries p) (rest : (f false).Leads) :
    (p >>= f).Leads := by
  intro o c c' b run
  obtain ⟨taken, c₁, begun, last⟩ := bind_inv run
  cases taken with
  | true => exact first.taken o c c₁ begun
  | false =>
    obtain rfl := first.still o c c₁ begun
    exact rest o c₁ c' b last

/-- The next token begins with a character, or what follows says so. -/
theorem peek {f : Token → Parser β} (rest : ∀ t, t.kind.isSolid = false → (f t).Leads) :
    (Parser.peek >>= f).Leads := by
  intro o c c' b run
  obtain ⟨t, c₁, peeked, last⟩ := bind_inv run
  obtain ⟨following, heq, rfl⟩ := peek_inv peeked
  cases solid : t.kind.isSolid with
  | false => exact rest t solid o c₁ c' b last
  | true => exact ⟨t, following, heq, solid⟩

theorem here {f : Mark → Parser β} (rest : ∀ m, (f m).Leads) : (Parser.here >>= f).Leads :=
  still (Still.peek.bind fun _ => .pure _) rest

end Leads

theorem tries_of_take {at_ : Parser Bool} (still : at_.Still)
    (solid : ∀ o c c', at_ o c = some (true, c') → SolidHead c.rest) :
    Tries (do
      if ← at_ then
        let _ ← next
        return true
      else return false) := by
  constructor
  · intro o c c' run
    obtain ⟨found, c₁, looked, last⟩ := bind_inv run
    cases found with
    | true => exact solid o c c₁ looked
    | false => cases last
  · intro o c c' run
    obtain ⟨found, c₁, looked, last⟩ := bind_inv run
    obtain rfl := still o c c₁ found looked
    cases found with
    | true =>
      obtain ⟨t, c₂, -, last⟩ := bind_inv last
      cases last
    | false =>
      cases last
      rfl

theorem solidHead_of_peek {fits : Token → Bool} (solid : ∀ t, fits t = true → t.kind.isSolid = true)
    {o : ParseOptions} {c c' : Cursor}
    (run : (Parser.peek >>= fun t => (Pure.pure (fits t) : Parser Bool)) o c = some (true, c')) :
    SolidHead c.rest := by
  obtain ⟨t, c₁, peeked, last⟩ := bind_inv run
  obtain ⟨following, heq, rfl⟩ := peek_inv peeked
  refine ⟨t, following, heq, solid t ?_⟩
  cases isFit : fits t with
  | true => rfl
  | false =>
    rw [isFit] at last
    cases last

theorem tries_takeOp (text : String) : Tries (takeOp text) :=
  tries_of_take (.atOp text) fun _ _ _ run => solidHead_of_peek (fun _ => isSolid_of_isOp) run

theorem tries_takeWord (text : String) : Tries (takeWord text) :=
  tries_of_take (.atWord text) fun _ _ _ run => solidHead_of_peek (fun _ => isSolid_of_isWord) run

/-! ## What steps give -/

def Gives (tokens : List Token) (p : Parser Tree) : Prop :=
  ∀ (o : ParseOptions) (c c' : Cursor) (t : Tree), p o c = some (t, c') → Stands tokens c'.rest t

/-- What a step gives stands at a place of some tokens if the step begins with an end of them. -/
def From (tokens behind : List Token) (p : Parser Tree) : Prop :=
  ∀ (o : ParseOptions) (c c' : Cursor) (t : Tree), c.rest = behind → p o c = some (t, c') → Stands tokens c'.rest t

/-- What a step gives stands at a place of some tokens if the tree does that was found in front of the step. -/
def Keeps (tokens : List Token) (t : Tree) (p : Parser Tree) : Prop :=
  ∀ (o : ParseOptions) (c c' : Cursor) (u : Tree), Stands tokens c.rest t → p o c = some (u, c') →
    Stands tokens c'.rest u

/-- A rule for expressions: it takes a token that begins with a character first, and what it gives begins with one. -/
structure Placed (p : Parser Tree) : Prop where
  leads : p.Leads
  stands : ∀ tokens, From tokens tokens p

namespace Gives

variable {tokens : List Token} {t : Tree}

theorem after {p : Parser α} {f : α → Parser Tree} (last : ∀ a, Gives tokens (f a)) : Gives tokens (p >>= f) := by
  intro o c c' t run
  obtain ⟨a, c₁, -, run⟩ := bind_inv run
  exact last a o c₁ c' t run

theorem bind {p : Parser Tree} {f : Tree → Parser Tree} (first : Gives tokens p) (rest : ∀ t, Keeps tokens t (f t)) :
    Gives tokens (p >>= f) := by
  intro o c c' t run
  obtain ⟨u, c₁, begun, run⟩ := bind_inv run
  exact rest u o c₁ c' t (first o c c₁ u begun) run

theorem pure (stands : ∀ rest, Stands tokens rest t) : Gives tokens (Pure.pure t) := by
  intro o c c' u run
  cases run
  exact stands _

theorem fail : Gives tokens Parser.fail := fun _ _ _ _ run => by cases run

theorem ite {condition : Prop} [Decidable condition] {p q : Parser Tree} (left : Gives tokens p)
    (right : Gives tokens q) : Gives tokens (if condition then p else q) := by
  split
  · exact left
  · exact right

theorem node {start : Mark} {kind : Kind} {slots : List (List Tree)} (isStart : IsStart tokens start)
    (isPlaced : (kind.isPlaced && !kind.isName) = true) : Gives tokens (Parser.node start kind slots) := by
  rw [Bool.and_eq_true, Bool.not_eq_true'] at isPlaced
  intro o c c' t run
  cases run
  exact ⟨isPlaced.1, isStart, fun isName => absurd (isName.symm.trans isPlaced.2) (by decide)⟩

theorem start {behind : List Token} {p : Parser Tree} (gives : Gives tokens p) : From tokens behind p :=
  fun o c c' t _ run => gives o c c' t run

theorem keeps {p : Parser Tree} (gives : Gives tokens p) : Keeps tokens t p := fun o c c' u _ run => gives o c c' u run

end Gives

namespace Keeps

variable {tokens : List Token} {t : Tree}

theorem pure : Keeps tokens t (Pure.pure t) := by
  intro o c c' u stands run
  cases run
  exact stands

theorem step {p : Parser α} {f : α → Parser Tree} (moves : p.Moves) (rest : ∀ a, Keeps tokens t (f a)) :
    Keeps tokens t (p >>= f) := by
  intro o c c' u stands run
  obtain ⟨a, c₁, begun, run⟩ := bind_inv run
  exact rest a o c₁ c' u (stands.mono List.suffix_rfl (moves o c c₁ a begun)) run

theorem ite {condition : Prop} [Decidable condition] {p q : Parser Tree} (left : Keeps tokens t p)
    (right : Keeps tokens t q) : Keeps tokens t (if condition then p else q) := by
  split
  · exact left
  · exact right

theorem optional {p : Parser α} {f : Option α → Parser Tree} (absent : Keeps tokens t (f none))
    (present : ∀ a, Gives tokens (f (some a))) : Keeps tokens t (Parser.optional p >>= f) := by
  intro o c c' u stands run
  obtain ⟨found, c₁, begun, last⟩ := bind_inv run
  rcases optional_inv begun with ⟨a, rfl, -⟩ | ⟨rfl, rfl⟩
  · exact present a o c₁ c' u last
  · exact absent o c₁ c' u stands last

/-- Behind a repetition that found nothing the tree may be passed on. -/
theorem many {p : Parser α} {f : List α → Parser Tree} (absent : Keeps tokens t (f []))
    (present : ∀ a l, Gives tokens (f (a :: l))) : Keeps tokens t (Parser.many p >>= f) := by
  intro o c c' u stands run
  obtain ⟨found, c₁, begun, last⟩ := bind_inv run
  cases found with
  | nil =>
    obtain rfl := many_nil_inv begun
    exact absent o c₁ c' u stands last
  | cons a l => exact present a l o c₁ c' u last

end Keeps

namespace From

variable {tokens behind : List Token}

theorem ite {condition : Prop} [Decidable condition] {p q : Parser Tree} (left : From tokens behind p)
    (right : From tokens behind q) : From tokens behind (if condition then p else q) := by
  split
  · exact left
  · exact right

theorem still {p : Parser α} {f : α → Parser Tree} (first : p.Still) (rest : ∀ a, From tokens behind (f a)) :
    From tokens behind (p >>= f) := by
  intro o c c' t isRest run
  obtain ⟨a, c₁, begun, last⟩ := bind_inv run
  obtain rfl := first o c c₁ a begun
  exact rest a o c₁ c' t isRest last

theorem tries {p : Parser Bool} {f : Bool → Parser Tree} (first : Tries p) (yes : Gives tokens (f true))
    (no : From tokens behind (f false)) : From tokens behind (p >>= f) := by
  intro o c c' t isRest run
  obtain ⟨taken, c₁, begun, last⟩ := bind_inv run
  cases taken with
  | true => exact yes o c₁ c' t last
  | false =>
    obtain rfl := first.still o c c₁ begun
    exact no o c₁ c' t isRest last

theorem bind {p : Parser Tree} {f : Tree → Parser Tree} (first : From tokens behind p)
    (rest : ∀ t, Keeps tokens t (f t)) : From tokens behind (p >>= f) := by
  intro o c c' t isRest run
  obtain ⟨u, c₁, begun, run⟩ := bind_inv run
  exact rest u o c₁ c' t (first o c c₁ u isRest begun) run

theorem op {text : String} {f : Token → Parser Tree}
    (rest : ∀ t later, later <:+ behind → From tokens later (f t)) : From tokens behind (Parser.op text >>= f) := by
  intro o c c' t isRest run
  obtain ⟨u, c₁, begun, last⟩ := bind_inv run
  have whole := isRest.symm.trans (takeIf_inv begun).1
  exact rest u c₁.rest (whole ▸ List.suffix_cons u c₁.rest) o c₁ c' t rfl last

theorem here {f : Mark → Parser Tree} (solid : SolidHead tokens)
    (rest : ∀ m, IsStart tokens m → From tokens tokens (f m)) : From tokens tokens (Parser.here >>= f) := by
  intro o c c' t isRest run
  obtain ⟨m, c₁, begun, last⟩ := bind_inv run
  obtain ⟨first, following, whole, rfl, rfl⟩ := here_inv begun
  obtain ⟨u, behind, same, isSolid⟩ := solid
  obtain ⟨rfl, -⟩ := List.cons.inj (whole.symm.trans (isRest.trans same))
  exact rest _ ⟨first, isRest ▸ whole ▸ List.mem_cons_self, isSolid, rfl, rfl⟩ o c₁ c' t isRest last

theorem peek {f : Token → Parser Tree} (rest : ∀ t later, behind = t :: later → From tokens behind (f t)) :
    From tokens behind (Parser.peek >>= f) := by
  intro o c c' t isRest run
  obtain ⟨u, c₁, peeked, last⟩ := bind_inv run
  obtain ⟨later, heq, rfl⟩ := peek_inv peeked
  exact rest u later (isRest.symm.trans heq) o c₁ c' t isRest last

theorem name {start : Mark} {kind : String → Kind} (isStart : IsStart tokens start)
    (isPlaced : ∀ id, (kind id).isPlaced = true) :
    From tokens tokens (Parser.name >>= fun id => Parser.node start (kind id) []) := by
  intro o c c' t isRest run
  obtain ⟨found, c₁, named, last⟩ := bind_inv run
  cases last
  obtain ⟨u, c₂, taken, last⟩ := bind_inv named
  cases last
  obtain ⟨whole, isFree⟩ := takeIf_inv taken
  have isSolid := isSolid_of_isFreeName isFree
  refine ⟨isPlaced _, isStart, fun _ => ⟨[], u, c'.rest, isRest ▸ whole, List.suffix_rfl, isSolid, ?_⟩⟩
  have stop := next_stop (takeIf_next taken).1
  rw [if_pos (TokenKind.isInked_of_isSolid isSolid)] at stop
  exact stop.symm

end From

namespace Placed

theorem here {f : Mark → Parser Tree} (leads : ∀ m, (f m).Leads)
    (stands : ∀ tokens m, IsStart tokens m → From tokens tokens (f m)) : Placed (Parser.here >>= f) := by
  refine ⟨.here leads, fun tokens o c c' t isRest run => ?_⟩
  have solid : SolidHead tokens := isRest ▸ Leads.here leads o c c' t run
  exact From.here solid (stands tokens) o c c' t isRest run

theorem node {f : Mark → Parser Tree} (leads : ∀ m, (f m).Leads)
    (stands : ∀ tokens m, IsStart tokens m → Gives tokens (f m)) : Placed (Parser.here >>= f) :=
  here leads fun tokens m isStart => (stands tokens m isStart).start

theorem still {p : Parser α} {f : α → Parser Tree} (first : p.Still) (rest : ∀ a, (f a).Placed) :
    Placed (p >>= f) :=
  ⟨.still first fun a => (rest a).leads, fun tokens => .still first fun a => (rest a).stands tokens⟩

theorem ite {condition : Prop} [Decidable condition] {p q : Parser Tree} (left : p.Placed) (right : q.Placed) :
    Placed (if condition then p else q) := by
  split
  · exact left
  · exact right

theorem behind {p : Parser Tree} (placed : p.Placed) {tokens later : List Token} (suffix : later <:+ tokens) :
    From tokens later p :=
  fun o c c' t isRest run => (placed.stands later o c c' t isRest run).mono suffix List.suffix_rfl

end Placed

/-- What is known of the rules for expressions that others begin with. -/
structure PlacedRules (r : Rules) : Prop where
  expression : (one r .expression).Placed
  named : (one r .named).Placed
  starExpressions : (one r .starExpressions).Leads

namespace PlacedRules

variable {r : Rules}

/-! ## Atoms -/

theorem starred (inner : Rule) : (Parser.starred r inner).Placed :=
  .node (fun _ => (Leads.op _).bind) fun _ _ isStart => .after fun _ => .after fun _ => .node isStart rfl

theorem yieldExpr : (Parser.yieldExpr r).Placed :=
  .node (fun _ => (Leads.word _).bind) fun _ _ isStart => .after fun _ => .after fun _ =>
    .ite (.after fun _ => .node isStart rfl) (.after fun _ => .node isStart rfl)

theorem strings {tokens : List Token} (solid : SolidHead tokens) : From tokens tokens (Parser.strings r) := by
  refine .here solid fun start isStart => Gives.start (.after fun strings => ?_)
  intro o c c' t run
  obtain ⟨whole, c₁, first, run⟩ := bind_inv run
  have span : IsStart tokens whole.mark := by
    cases first
    exact isStart
  revert run
  refine Gives.ite (.ite ?_ .fail) (.after fun parts => ?_) o c₁ c' t
  · split
    · exact .node isStart rfl
    · exact .fail
  · exact .ite (.pure fun _ => ⟨rfl, span, nofun⟩) (.pure fun _ => ⟨rfl, span, nofun⟩)

theorem number : Parser.number.Placed :=
  .node (fun _ => (Leads.kind rfl).bind) fun _ _ isStart => .after fun _ => .after fun _ =>
    .ite (.after fun _ => .node isStart rfl) (.node isStart rfl)

theorem bracketed : (Parser.bracketed r).Placed := by
  refine .node (fun _ => (Leads.op _).bind) fun _ _ isStart => .after fun _ => .after fun _ => .ite (.node isStart rfl)
    (.after fun _ => .after fun _ => .ite (.after fun _ => .after fun _ => .node isStart rfl) (.after fun _ => ?_))
  exact .ite (.after fun _ => .after fun _ => .node isStart rfl) (.after fun _ => .after fun _ => .node isStart rfl)

theorem dictRest {tokens : List Token} {start : Mark} (isStart : IsStart tokens start) (k v : Tree) :
    Gives tokens (Parser.dictRest r start k v) := by
  refine .after fun _ => .ite (.after fun _ => .after fun _ => .node isStart rfl) (.after fun _ => ?_)
  exact .ite (.after fun _ => .after fun _ => .node isStart rfl) (.after fun _ => .after fun _ => .node isStart rfl)

theorem braced : (Parser.braced r).Placed := by
  refine .node (fun _ => (Leads.op _).bind) fun _ _ isStart => .after fun _ => .after fun _ => .ite (.node isStart rfl)
    (.after fun _ => .ite (.after fun ⟨k, v⟩ => dictRest isStart _ _) (.after fun _ => .after fun _ => .after fun _ =>
      .ite (.after fun _ => dictRest isStart _ _) (.after fun _ =>
        .ite (.after fun _ => .after fun _ => .node isStart rfl) (.after fun _ => ?_))))
  exact .ite (.after fun _ => .after fun _ => .node isStart rfl) (.after fun _ => .after fun _ => .node isStart rfl)

variable (h : PlacedRules r)
include h

theorem starNamed : (Parser.starNamed r).Placed := .still (.atOp _) fun _ => .ite (starred _) h.named

theorem parenthesized : (Parser.parenthesized r).Placed := by
  refine .here (fun _ => (Leads.op _).bind) fun tokens start isStart => .op fun _ behind within =>
    .tries (tries_takeOp _) (.node isStart rfl) (.still (.atWord _) fun _ => .ite ?_ ?_)
  · exact (yieldExpr.behind within).bind fun t => .step (.op _) fun _ => .pure
  · refine (h.starNamed.behind within).bind fun first => .step (.still (Still.peek.bind fun _ => .pure _)) fun _ =>
      .ite (Gives.keeps (.after fun _ => .after fun _ => .node isStart rfl)) (.step (.takeOp _) fun _ => .ite ?_ ?_)
    · exact Gives.keeps (.after fun _ => .after fun _ => .node isStart rfl)
    · exact .step (.op _) fun _ => .step (.guardThat _) fun _ => .pure

theorem atom : (Parser.atom r).Placed := by
  refine .here (fun m => .peek fun t noSolid => ?_) fun tokens m isStart => .peek fun t behind whole => ?_
  · split
    all_goals first | exact .fail | skip
    all_goals
      rename_i isKind
      rw [isKind] at noSolid
      cases noSolid
  · split
    case h_1 isString => exact strings ⟨t, behind, whole, by rw [isString]; rfl⟩
    case h_2 => exact number.stands tokens
    case h_3 => exact .name isStart fun _ => rfl
    case h_4 =>
      dsimp only
      split
      · exact Gives.start (.after fun _ => .node isStart rfl)
      · exact .name isStart fun _ => rfl
    case h_5 =>
      refine .ite (h.parenthesized.stands tokens) (.ite (bracketed.stands tokens) (.ite (braced.stands tokens) ?_))
      exact Gives.start (.ite (.after fun _ => .node isStart rfl) .fail)
    case h_6 => exact Gives.fail.start

/-! ## Operators -/

omit h in
theorem trailers {tokens : List Token} {start : Mark} (isStart : IsStart tokens start) (fuel : Nat) (t : Tree) :
    Keeps tokens t (Parser.trailers r start fuel t) := by
  induction fuel generalizing t with
  | zero => exact .pure
  | succ fuel ih =>
    have goOn : ∀ {kind slots}, (kind.isPlaced && !kind.isName) = true → Gives tokens
        (Parser.node start kind slots >>= fun t => Parser.trailers r start fuel t) :=
      fun isPlaced => (Gives.node isStart isPlaced).bind fun t => ih t
    refine .step (.still .peek) fun token => .ite (Gives.keeps ?dot) (.ite (Gives.keeps ?call)
      (.ite (Gives.keeps ?element) .pure))
    case dot => exact .after fun _ => .after fun _ => goOn rfl
    case call =>
      exact .after fun _ => .after fun _ => .after fun _ => .after fun _ => .ite (.after fun _ => goOn rfl)
        (.after fun _ => .after fun _ => goOn rfl)
    case element => exact .after fun _ => .after fun _ => .after fun _ => goOn rfl

theorem primary : (Parser.primary r).Placed :=
  .here (fun _ => h.atom.leads.bind) fun tokens _ isStart => (h.atom.stands tokens).bind fun t o c =>
    trailers isStart (c.rest.length + 1) t o c

theorem awaitPrimary : (Parser.awaitPrimary r).Placed :=
  .here (fun _ => .tries (tries_takeWord _) h.primary.leads) fun tokens _ isStart =>
    .tries (tries_takeWord _) (.after fun _ => .after fun _ => .node isStart rfl) (h.primary.stands tokens)

theorem power : (Parser.power r).Placed :=
  .here (fun _ => h.awaitPrimary.leads.bind) fun tokens _ isStart => (h.awaitPrimary.stands tokens).bind
    fun _ => .step (.takeOp _) fun _ => .ite (Gives.keeps (.after fun _ => .node isStart rfl)) .pure

theorem factor : (Parser.factor r).Placed := by
  refine .here (fun m => .peek fun t noSolid => ?_) fun tokens m isStart => .peek fun t behind whole => ?_
  · have noOp : ∀ text, t.isOp text = false := fun text => by
      cases isOp : t.isOp text with
      | false => rfl
      | true => rw [isSolid_of_isOp isOp] at noSolid; cases noSolid
    simp only [noOp, Bool.false_eq_true, if_false]
    exact h.power.leads
  · dsimp only
    split
    · exact Gives.start (.after fun _ => .after fun _ => .node isStart rfl)
    · exact h.power.stands tokens

omit h in
theorem leftFrom {tokens : List Token} {start : Mark} (isStart : IsStart tokens start)
    (operator : Parser BinaryOperator) (operand : Parser Tree) (fuel : Nat) (t : Tree) :
    Keeps tokens t (Parser.leftFrom start operator operand fuel t) := by
  induction fuel generalizing t with
  | zero => exact .pure
  | succ fuel ih =>
    intro o c c' u stands run
    obtain ⟨found, c₁, more, last⟩ := bind_inv run
    rcases optional_inv more with ⟨tree, rfl, step⟩ | ⟨rfl, rfl⟩
    · refine ih tree o c₁ c' u ?_ last
      exact Gives.after (fun _ => .after fun _ => .node isStart rfl) o c c₁ tree step
    · exact Keeps.pure o c₁ c' u stands last

omit h in
theorem leftAssoc (operators : List (String × BinaryOperator)) {operand : Parser Tree} (placed : operand.Placed) :
    (Parser.leftAssoc operators operand).Placed :=
  .here (fun _ => placed.leads.bind) fun tokens _ isStart => (placed.stands tokens).bind fun t o c =>
    leftFrom isStart _ operand (c.rest.length + 1) t o c

theorem bitOr : (Parser.bitOr r).Placed :=
  leftAssoc _ (leftAssoc _ (leftAssoc _ (leftAssoc _ (leftAssoc _ (leftAssoc _ h.factor)))))

theorem comparison : (Parser.comparison r).Placed :=
  .here (fun _ => h.bitOr.leads.bind) fun tokens _ isStart => (h.bitOr.stands tokens).bind fun _ =>
    .many .pure fun _ _ => .node isStart rfl

theorem inversion : (Parser.inversion r).Placed :=
  .here (fun _ => .tries (tries_takeWord _) h.comparison.leads) fun tokens _ isStart =>
    .tries (tries_takeWord _) (.after fun _ => .node isStart rfl) (h.comparison.stands tokens)

omit h in
theorem chained (between : String) (operator : BoolOperator) {operand : Parser Tree} (placed : operand.Placed) :
    (Parser.chained between operator operand).Placed :=
  .here (fun _ => placed.leads.bind) fun tokens _ isStart => (placed.stands tokens).bind fun _ =>
    .many .pure fun _ _ => .node isStart rfl

theorem disjunction : (Parser.disjunction r).Placed := chained _ _ (chained _ _ h.inversion)

omit h in
theorem lambdaExpr : (Parser.lambdaExpr r).Placed :=
  .node (fun _ => (Leads.word _).bind) fun _ _ isStart => .after fun _ => .after fun _ => .after fun _ =>
    .after fun _ => .node isStart rfl

theorem expression_placed : (Parser.expression r).Placed :=
  .still (.atWord _) fun _ => .ite lambdaExpr (.here (fun _ => h.disjunction.leads.bind)
    fun tokens _ isStart => (h.disjunction.stands tokens).bind fun _ => .optional .pure fun _ => .node isStart rfl)

theorem named_placed : (Parser.named r).Placed :=
  .here (fun _ => .still (.test _) fun _ => .ite Leads.name.bind h.expression.leads.bind) fun tokens _ isStart =>
    .still (.test _) fun _ => .ite
      (Gives.start (.after fun _ => .after fun _ => .after fun _ => .after fun _ => .after fun _ => .node isStart rfl))
      ((h.expression.stands tokens).bind fun _ => .step (.still (.atOp _)) fun _ => .step (.guardThat _) fun _ => .pure)

theorem starExpressions_leads : (Parser.starExpressions r).Leads :=
  .here fun _ => Leads.bind (Leads.bind (Leads.bind (.still (.atOp _) fun _ => .ite (starred _).leads
    h.expression.leads)))

/-! ## Rules -/

omit h in
theorem one_inv {rule : Rule} {p : Parser Tree} (single : Parser.step r rule = step.single p) {o : ParseOptions}
    {c c' : Cursor} {t : Tree} (run : one (Parser.step r) rule o c = some (t, c')) : p o c = some (t, c') := by
  obtain ⟨found, c₁, first, run⟩ := bind_inv run
  rw [single] at first
  obtain ⟨u, c₂, begun, last⟩ := bind_inv first
  cases last
  cases run
  exact begun

omit h in
theorem one_step {rule : Rule} {p : Parser Tree} (placed : p.Placed) (single : Parser.step r rule = step.single p) :
    (one (Parser.step r) rule).Placed :=
  ⟨fun o c c' t run => placed.leads o c c' t (one_inv single run),
    fun tokens o c c' t isRest run => placed.stands tokens o c c' t isRest (one_inv single run)⟩

theorem step : PlacedRules (Parser.step r) :=
  ⟨one_step h.expression_placed rfl, one_step h.named_placed rfl,
    fun o c c' t run => h.starExpressions_leads o c c' t (one_inv rfl run)⟩

end PlacedRules

theorem placed_rules (fuel : Nat) : PlacedRules (rules fuel) := by
  induction fuel with
  | zero =>
    have none : ∀ rule, (one (rules 0) rule).Placed := fun _ =>
      ⟨fun _ _ _ _ run => (by cases run), fun _ _ _ _ _ _ run => (by cases run)⟩
    exact ⟨none _, none _, (none _).leads⟩
  | succ fuel ih => exact ih.step

end Parser

end MacroExpand
