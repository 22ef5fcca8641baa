import MacroExpand.Proofs.Breaks
import MacroExpand.Proofs.Expressions
import MacroExpand.Proofs.Fields
import MacroExpand.Proofs.Literals
import MacroExpand.Proofs.Outcome

/-!
# Where the trees of a text come from

The grammar makes a text constant in one place only, out of string tokens that follow each other, and a call in one
place only, between its callee and a bracket.  `Reading.Sound p` says that a parsing step, on tokens of a source,
builds trees whose texts are all spelled by string tokens of that source, and whose calls and statements begin and end
with tokens of it.  Here it is proved of the steps that all rules are made of, of lists and parameters, and of
literals.  The constants among the parts of a formatted literal are set apart, because a doubled brace in a literal
stands for one.
-/

set_option autoImplicit false

namespace MacroExpand

/-! ## Kinds of nodes -/

@[simp] def Kind.isText : Kind → Bool
  | .constant (.str _) _ => true
  | _ => false

theorem Kind.isText_iff {kind : Kind} :
    kind.isText = true ↔ ∃ text marked, kind = .constant (.str text) marked := by
  unfold isText
  split <;> simp_all

@[simp] def Kind.isRemovable : Kind → Bool
  | .functionDef .. | .assign _ | .annAssign _ => true
  | _ => false

theorem Kind.isRemovable_of_isBinding {kind : Kind} (binding : kind.isBinding = true) : kind.isRemovable = true := by
  cases kind <;> first | rfl | cases binding

def Tree.decorators (t : Tree) : List Tree :=
  match t.kind with
  | .functionDef .. => t.slot 2
  | _ => []

def Tree.CallsFrom (t : Tree) (place : Nat ×ₗ Nat) : Prop := ∀ n ∈ t.nodes, n.kind = .call → place ≤ n.mark.start

theorem Tree.CallsFrom.mono {t : Tree} {place place' : Nat ×ₗ Nat} (calls : t.CallsFrom place) (le : place' ≤ place) :
    t.CallsFrom place' :=
  fun n inside isCall => le.trans (calls n inside isCall)

/-- Whether a node may have some slots as far as names are concerned: a name has none, and a call calls one thing. -/
@[simp] def Kind.isShaped : Kind → List (List Tree) → Bool
  | .name _ _, slots => slots.isEmpty
  | .call, slots => (slots.headD []).length == 1
  | _, _ => true

/-- Whether no line ends in the name that a node reads or binds. -/
@[simp] def Kind.isOneLine : Kind → Bool
  | .name id _ | .functionDef id _ _ => decide ('\n' ∉ id.toList ∧ '\r' ∉ id.toList)
  | _ => true

/-- What most nodes are: they stand at places, and are neither texts nor calls nor statements that a pass may remove. -/
@[simp] def Kind.isOrdinary : Kind → List (List Tree) → Bool
  | .module _, _ | .arguments, _ | .withItem, _ | .matchCase, _ | .absent, _ => false
  | .constant (.str _) _, _ | .call, _ | .functionDef .., _ | .assign _, _ | .annAssign _, _ => false
  | .name id usage, slots => slots.isEmpty && isOneLine (.name id usage)
  | _, _ => true

section Ordinary

variable {kind : Kind} {slots : List (List Tree)}

theorem Kind.isShaped_of_isOrdinary (ordinary : kind.isOrdinary slots = true) : kind.isShaped slots = true := by
  unfold isShaped
  split
  · exact (Bool.and_eq_true_iff.mp ordinary).1
  · cases ordinary
  · rfl

theorem Kind.isOneLine_of_isOrdinary (ordinary : kind.isOrdinary slots = true) : kind.isOneLine = true := by
  unfold isOneLine
  split
  · exact (Bool.and_eq_true_iff.mp ordinary).2
  · cases ordinary
  · rfl

theorem Kind.isShaped_of_unplaced (unplaced : kind.isPlaced = false) : kind.isShaped slots = true := by
  unfold isShaped
  split
  · cases unplaced
  · cases unplaced
  · rfl

theorem Kind.decorators_of_isOrdinary (ordinary : kind.isOrdinary slots = true) (m : Mark) :
    (Tree.node m kind slots).decorators = [] := by
  unfold Tree.decorators
  split
  case h_1 isFunction =>
    rw [Tree.kind] at isFunction
    rw [isFunction] at ordinary
    cases ordinary
  · rfl

theorem Kind.isPlaced_of_isRemovable (removable : kind.isRemovable = true) : kind.isPlaced = true := by
  cases kind <;> first | rfl | cases removable

theorem Kind.not_removable_of_isOrdinary (ordinary : kind.isOrdinary slots = true) :
    kind.isRemovable ≠ true := by
  cases kind <;> first | exact Bool.false_ne_true | cases ordinary

end Ordinary

/-! ## Sources -/

/-- A text that is parsed, whose lines end with line feeds, and the version it is held to. -/
structure Source where
  text : Text
  version : Nat

namespace Source

/-- The tokens of a source, and those of the expressions in its formatted literals. -/
inductive Lexed (s : Source) : List Token → Prop where
  | whole (typeComments : Bool) :
      Lexed s (Lexer.run { typeComments, version := s.version } s.text).tokens
  | field {tokens : List Token} {t : Token} {pieces : List Piece} {expression : Text}
      {line column : Nat} (outer : Lexed s tokens) (member : t ∈ tokens) (isString : t.kind = .string)
      (split : (StringLiteral.ofToken t).split = .ok pieces)
      (field : StringLiteral.Field pieces expression line column) :
      Lexed s (Lexer.run { startLine := line, startColumn := column, version := s.version }
        ('(' :: (expression ++ [')']))).tokens

/-- A text that tokens are cut from: the source, or the expression of a field in one of those tokens. -/
inductive Cuts (s : Source) (typeComments : Bool) : LexOptions → Text → Prop where
  | file : Cuts s typeComments { typeComments, version := s.version } s.text
  | field {options : LexOptions} {text : Text} {t : Token} {pieces : List Piece} {expression : Text}
      {line column : Nat} (outer : Cuts s typeComments options text) (member : t ∈ (Lexer.run options text).tokens)
      (isString : t.kind = .string) (split : (StringLiteral.ofToken t).split = .ok pieces)
      (field : StringLiteral.Field pieces expression line column) :
      Cuts s typeComments { startLine := line, startColumn := column, version := s.version }
        ('(' :: (expression ++ [')']))

theorem Cuts.lexed {s : Source} {typeComments : Bool} {options : LexOptions} {text : Text}
    (cuts : s.Cuts typeComments options text) : s.Lexed (Lexer.run options text).tokens := by
  induction cuts with
  | file => exact .whole typeComments
  | field _ member isString split field ih => exact .field ih member isString split field

structure Spells (run : List Token) (text : Text) : Prop where
  strings : ∀ t ∈ run, t.kind = .string
  plain : ∀ t ∈ run, (StringLiteral.ofToken t).isBytes = false ∧
    (StringLiteral.ofToken t).isFormatted = false
  texts : ∃ parts, run.mapM (fun t => (StringLiteral.ofToken t).text) = .ok parts ∧
    parts.flatten = text.map .char

/-- Where tokens of the source begin and end, but for the ends of lines, and where its texts begin. -/
inductive Edge (s : Source) : Nat → Nat → Prop where
  | first : Edge s 1 0
  | field {tokens : List Token} {t : Token} {pieces : List Piece} {expression : Text} {line column : Nat}
      (outer : s.Lexed tokens) (member : t ∈ tokens) (isString : t.kind = .string)
      (split : (StringLiteral.ofToken t).split = .ok pieces)
      (field : StringLiteral.Field pieces expression line column) : Edge s line column
  | begins {tokens : List Token} {t : Token} (lexed : s.Lexed tokens) (member : t ∈ tokens) :
      Edge s t.line t.column
  | ends {tokens : List Token} {t : Token} (lexed : s.Lexed tokens) (member : t ∈ tokens)
      (noFeed : t.kind ≠ .newline) : Edge s t.endLine t.endColumn

/-- String tokens of the source that follow each other, from a place on, spell a text. -/
structure Writes (s : Source) (m : Mark) (text : Text) (run : List Token) : Prop where
  lexed : ∃ tokens, s.Lexed tokens ∧ run <:+: tokens
  spells : Spells run text
  place : ∀ first ∈ run.head?, first.line = m.line ∧ first.column = m.column

def Spelled (s : Source) (m : Mark) (text : Text) : Prop := ∃ run, s.Writes m text run

/-- A mark from where a token begins to where one ends. -/
structure Spans (s : Source) (m : Mark) : Prop where
  unlabelled : m.label = 0
  start : s.Edge m.line m.column
  stop : s.Edge m.endLine m.endColumn

theorem Cuts.edge {s : Source} {typeComments : Bool} {options : LexOptions} {text : Text}
    (cuts : s.Cuts typeComments options text) : s.Edge options.startLine options.startColumn := by
  cases cuts with
  | file => exact .first
  | field outer member isString split field => exact .field outer.lexed member isString split field

end Source

/-! ## Trees of a source -/

/-- What is known of the trees that are built from a source: the comments that count as tokens, and where calls begin at
the earliest. -/
structure Frame extends Source where
  typeComments : Bool
  lo : Nat ×ₗ Nat

namespace Frame

def Starts (s : Frame) (place : Nat ×ₗ Nat) : Prop :=
  ∃ options text, s.Cuts s.typeComments options text ∧
    ∃ u ∈ (Lexer.run options text).tokens, u.kind.isSolid = true ∧ u.start = place

def Stops (s : Frame) (place : Nat ×ₗ Nat) : Prop :=
  ∃ options text, s.Cuts s.typeComments options text ∧
    ∃ u ∈ (Lexer.run options text).tokens, u.kind.isInked = true ∧ u.stop = place

/-- Where the source begins, or one of its tokens ends that does not stand in a formatted literal. -/
def Closes (s : Frame) (place : Nat ×ₗ Nat) : Prop :=
  place = toLex (1, 0) ∨ ∃ u ∈ (Lexer.run { typeComments := s.typeComments, version := s.version } s.text).tokens,
    u.kind.isInked = true ∧ u.stop = place

/-- A tree at a place where a token begins with a character. -/
structure Leads (s : Frame) (t : Tree) : Prop where
  isPlaced : t.kind.isPlaced = true
  begins : s.Starts t.mark.start

/-- A call begins and ends with tokens.  If it calls a name, the name ends inside the call, and the calls in its
arguments begin behind the name. -/
structure CallAt (s : Frame) (m : Mark) (slots : List (List Tree)) : Prop where
  inside : s.lo ≤ m.start
  begins : s.Starts m.start
  ends : s.Stops m.stop
  callee : ∀ t ∈ slots.headD [], t.kind.isName = true → m.start ≤ t.mark.stop ∧ t.mark.stop ≤ m.stop ∧
    ∀ slot ∈ slots.tail, ∀ u ∈ slot, u.CallsFrom t.mark.stop

/-- What is known of a node that is no formatted literal, besides the trees below it. -/
structure NodeAt (s : Frame) (m : Mark) (kind : Kind) (slots : List (List Tree)) : Prop where
  unlabelled : m.label = 0
  shaped : kind.isShaped slots = true
  oneLine : kind.isOneLine = true
  spans : kind.isPlaced = true → s.Spans m
  spelled : ∀ text marked, kind = .constant (.str text) marked → s.Spelled m text
  decorators : ∀ d ∈ (Tree.node m kind slots).decorators, s.Leads d
  call : kind = .call → s.CallAt m slots
  removable : kind.isRemovable = true → s.Starts m.start ∧ s.Closes m.stop

/-- A tree without labels whose texts are spelled in the source at their places, and whose nodes span tokens; the plain
parts of formatted literals aside. -/
inductive Built (s : Frame) : Tree → Prop where
  | node {m : Mark} {kind : Kind} {slots : List (List Tree)} (here : s.NodeAt m kind slots)
      (below : ∀ slot ∈ slots, ∀ t ∈ slot, Built s t) : Built s (.node m kind slots)
  | joined {m : Mark} {slots : List (List Tree)} (spans : s.Spans m)
      (parts : ∀ slot ∈ slots, ∀ t ∈ slot, t.mark.label = 0)
      (below : ∀ slot ∈ slots, ∀ t ∈ slot, (t.kind.isText = true → t.slots ≠ []) → Built s t) :
      Built s (.node m .joinedStr slots)

namespace Built

variable {s : Frame} {t n : Tree}

theorem label_eq (h : s.Built t) : t.mark.label = 0 := by
  cases h with
  | node here => exact here.unlabelled
  | joined spans => exact spans.unlabelled

/-- What is known of the nodes of a tree, the plain parts of formatted literals aside, and of those parts. -/
theorem forall_nodes {P : Tree → Prop} (built : s.Built t) (leaf : ∀ t, t.kind.isText = true → P t)
    (node : ∀ m kind slots, s.NodeAt m kind slots → P (.node m kind slots))
    (joined : ∀ m slots, P (.node m .joinedStr slots)) : ∀ n ∈ t.nodes, P n := by
  induction built with
  | @node m kind slots here _ ih =>
    intro n inside
    rcases Tree.mem_nodes.mp inside with rfl | ⟨u, isChild, inside⟩
    · exact node m kind slots here
    · obtain ⟨slot, isSlot, inSlot⟩ := Tree.mem_children.mp isChild
      exact ih slot isSlot u inSlot n inside
  | @joined m slots spans parts below ih =>
    intro n inside
    rcases Tree.mem_nodes.mp inside with rfl | ⟨u, isChild, inside⟩
    · exact joined m slots
    · obtain ⟨slot, isSlot, inSlot⟩ := Tree.mem_children.mp isChild
      by_cases isLeaf : u.kind.isText = true ∧ u.slots = []
      · have only : u.nodes = [u] := by simp [Tree.nodes_eq u, Tree.children, isLeaf.2]
        rw [only, List.mem_singleton] at inside
        exact inside ▸ leaf u isLeaf.1
      · exact ih slot isSlot u inSlot (fun isText none => isLeaf ⟨isText, none⟩) n inside

theorem callsFrom (built : s.Built t) : t.CallsFrom s.lo := by
  refine built.forall_nodes (fun u isText isCall => ?_) (fun m kind slots here isCall => (here.call isCall).inside)
    fun _ _ isCall => nomatch isCall
  rw [isCall] at isText
  cases isText

theorem mono (built : s.Built t) {lo : Nat ×ₗ Nat} (lower : lo ≤ s.lo) : ({ s with lo } : Frame).Built t := by
  induction built with
  | node here _ ih =>
    have call := fun isCall => (here.call isCall)
    exact .node
      { here with
        decorators := fun d isDecorator => ⟨(here.decorators d isDecorator).isPlaced, (here.decorators d isDecorator).begins⟩
        call := fun isCall => { call isCall with inside := lower.trans (call isCall).inside }
        removable := here.removable } ih
  | joined spans parts _ ih => exact .joined spans parts ih

end Built

/-! ## Results of steps -/

/-- The trees that the result of a parsing step holds. -/
class Bears (α : Type) where
  trees : α → List Tree

/-- Results of any other kind hold no trees. -/
instance (priority := low) bearsNothing (α : Type) : Bears α := ⟨fun _ => []⟩

instance : Bears Tree := ⟨fun t => [t]⟩

/-- A mark that is only begun stands for a leaf at its start. -/
instance : Bears Mark := ⟨fun m => [.node { m with endLine := m.line, endColumn := m.column } .slice []]⟩

instance {α : Type} [Bears α] : Bears (List α) := ⟨fun l => l.flatMap Bears.trees⟩

instance {α : Type} [Bears α] : Bears (Option α) := ⟨fun o => o.toList.flatMap Bears.trees⟩

instance {α β : Type} [Bears α] [Bears β] : Bears (α × β) :=
  ⟨fun p => Bears.trees p.1 ++ Bears.trees p.2⟩

instance {α β : Type} [Bears α] [Bears β] : Bears (α ⊕ β) := ⟨Sum.elim Bears.trees Bears.trees⟩

def Good (s : Frame) {α : Type} [Bears α] (a : α) : Prop := ∀ t ∈ Bears.trees a, s.Built t

variable {s : Frame} {α β : Type} [Bears α] [Bears β]

@[simp] theorem good_tree {t : Tree} : s.Good t ↔ s.Built t := by
  simp [Good, Bears.trees]

@[simp] theorem good_nil : s.Good ([] : List α) := by
  simp [Good, Bears.trees]

@[simp] theorem good_cons {a : α} {l : List α} : s.Good (a :: l) ↔ s.Good a ∧ s.Good l := by
  simp [Good, Bears.trees, or_imp, forall_and]

@[simp] theorem good_append {l m : List α} : s.Good (l ++ m) ↔ s.Good l ∧ s.Good m := by
  simp [Good, Bears.trees, or_imp, forall_and]

theorem good_list {l : List α} : s.Good l ↔ ∀ a ∈ l, s.Good a := by
  induction l with
  | nil => simp
  | cons a l ih => simp [ih]

@[simp] theorem good_reverse {l : List α} : s.Good l.reverse ↔ s.Good l := by
  simp [good_list]

@[simp] theorem good_flatten {l : List (List α)} : s.Good l.flatten ↔ s.Good l := by
  induction l with
  | nil => simp
  | cons a l ih => simp [ih]

@[simp] theorem good_none : s.Good (none : Option α) := by
  simp [Good, Bears.trees]

@[simp] theorem good_some {a : α} : s.Good (some a) ↔ s.Good a := by
  simp [Good, Bears.trees]

@[simp] theorem good_toList {a : Option α} : s.Good a.toList ↔ s.Good a := by
  cases a <;> simp

@[simp] theorem good_pair {a : α} {b : β} : s.Good (a, b) ↔ s.Good a ∧ s.Good b := by
  simp [Good, Bears.trees, or_imp, forall_and]

theorem Good.sublist {l m : List α} (h : s.Good l) (hm : m.Sublist l) : s.Good m :=
  good_list.2 fun a ha => good_list.1 h a (hm.subset ha)

theorem Good.firsts {l : List (α × β)} (h : s.Good l) : s.Good (l.map Prod.fst) := by
  rw [good_list] at h ⊢
  intro a ha
  obtain ⟨p, hp, rfl⟩ := List.mem_map.1 ha
  exact (good_pair.1 (h p hp)).1

theorem Good.seconds {l : List (α × β)} (h : s.Good l) : s.Good (l.map Prod.snd) := by
  rw [good_list] at h ⊢
  intro b hb
  obtain ⟨p, hp, rfl⟩ := List.mem_map.1 hb
  exact (good_pair.1 (h p hp)).2

@[simp] theorem good_inl {a : α} : s.Good (Sum.inl a : α ⊕ β) ↔ s.Good a := Iff.rfl

@[simp] theorem good_inr {b : β} : s.Good (Sum.inr b : α ⊕ β) ↔ s.Good b := Iff.rfl

@[simp] theorem good_nothing {γ : Type} {a : γ} : @Good s γ (bearsNothing γ) a := by
  intro t ht
  cases ht

@[simp] theorem good_text {text : Text} : s.Good text := good_list.2 fun _ _ => good_nothing

@[simp] theorem good_points {points : List CodePoint} : s.Good points := good_list.2 fun _ _ => good_nothing

theorem good_slots {slots : List (List Tree)} : s.Good slots ↔ ∀ slot ∈ slots, ∀ t ∈ slot, s.Built t := by
  simp [good_list]

theorem Good.mono {a : α} (good : s.Good a) {lo : Nat ×ₗ Nat} (lower : lo ≤ s.lo) : ({ s with lo } : Frame).Good a :=
  fun t member => (good t member).mono lower

/-- A node that spans tokens, other than a text, a call and a statement that may be removed. -/
theorem built_above {m : Mark} {kind : Kind} {slots : List (List Tree)} (spans : s.Spans m)
    (h : kind.isOrdinary slots = true ∧ s.Good slots) : s.Built (.node m kind slots) := by
  obtain ⟨ordinary, good⟩ := h
  have noRemoval := Kind.not_removable_of_isOrdinary ordinary
  refine .node { unlabelled := spans.unlabelled, shaped := Kind.isShaped_of_isOrdinary ordinary,
                 oneLine := Kind.isOneLine_of_isOrdinary ordinary, spans := fun _ => spans,
                 spelled := fun text marked isText => ?_, decorators := ?_, call := fun isCall => ?_,
                 removable := fun removable => absurd removable noRemoval } (good_slots.mp good)
  · rw [isText] at ordinary
    cases ordinary
  · rw [Kind.decorators_of_isOrdinary ordinary]
    exact List.forall_mem_nil _
  · rw [isCall] at ordinary
    cases ordinary

theorem built_unplaced {kind : Kind} {slots : List (List Tree)} (h : kind.isPlaced = false ∧ s.Good slots) :
    s.Built (.node {} kind slots) := by
  obtain ⟨unplaced, good⟩ := h
  have noRemoval : kind.isRemovable ≠ true := fun removable => by
    rw [Kind.isPlaced_of_isRemovable removable] at unplaced
    cases unplaced
  refine .node { unlabelled := rfl, shaped := Kind.isShaped_of_unplaced unplaced,
                 oneLine := (by cases kind <;> first | rfl | cases unplaced), spans := fun isPlaced => ?_,
                 spelled := fun text marked isText => ?_, decorators := ?_, call := fun isCall => ?_,
                 removable := fun removable => absurd removable noRemoval } (good_slots.mp good)
  · rw [isPlaced] at unplaced
    cases unplaced
  · rw [isText] at unplaced
    cases unplaced
  · unfold Tree.decorators
    split
    case h_1 isFunction =>
      rw [Tree.kind] at isFunction
      rw [isFunction] at unplaced
      cases unplaced
    case h_2 => exact List.forall_mem_nil _
  · rw [isCall] at unplaced
    cases unplaced

@[simp] theorem good_mark {m : Mark} : s.Good m ↔ m.label = 0 ∧ s.Edge m.line m.column := by
  rw [Good]
  simp only [Bears.trees, List.mem_singleton, forall_eq]
  constructor
  · intro h
    cases h with
    | node here => exact ⟨here.unlabelled, (here.spans rfl).start⟩
  · exact fun h => built_above ⟨h.1, h.2, h.2⟩ ⟨rfl, good_nil⟩

/-- A mark where a token begins with a character, no earlier than calls may. -/
structure Begins (s : Frame) (m : Mark) : Prop where
  inside : s.lo ≤ m.start
  starts : s.Starts m.start

end Frame

/-! ## Readings -/

/-- What is known of the trees that are built, and the text that they are read from. -/
structure Reading extends Frame where
  options : LexOptions
  body : Text

namespace Reading

open MacroExpand.Frame
open MacroExpand.Parser (bind_inv optional_inv peek_inv here_inv next_inv next_stop takeIf_inv takeIf_next)

def tokens (s : Reading) : List Token := (Lexer.run s.options s.body).tokens

def begin (s : Reading) : Nat ×ₗ Nat := toLex (s.options.startLine, s.options.startColumn)

/-- The source itself is read. -/
structure Whole (s : Reading) : Prop where
  options : s.options = { typeComments := s.typeComments, version := s.version }
  body : s.body = s.text

def behind (s : Reading) (place : Nat ×ₗ Nat) : Reading := { s with lo := place }

/-- Tokens of the text are left to be read, in front of which the one ends that was read last, if any was. -/
structure Left (s : Reading) (c : Cursor) : Prop where
  cuts : s.Cuts s.typeComments s.options s.body
  rest : c.rest <:+ s.tokens
  ahead : ∀ u ∈ c.rest, u.kind.isCut = true → c.stop ≤ u.start
  inside : s.lo ≤ c.stop
  last : c.stop = s.begin ∨ ∃ u ∈ s.tokens, u.kind.isInked = true ∧ u.stop = c.stop

variable {s : Reading} {α β : Type} [Bears α] [Bears β]

theorem ordered (s : Reading) :
    s.tokens.Pairwise fun u v => u.kind.isCut = true → v.kind.isCut = true → u.stop ≤ v.start := by
  have suffix : ∀ l, l <:+ s.tokens → l.Pairwise fun u v => u.kind.isCut = true → v.kind.isCut = true →
      u.stop ≤ v.start := by
    intro l
    induction l with
    | nil => exact fun _ => .nil
    | cons u l ih =>
      rintro ⟨front, split⟩
      refine List.pairwise_cons.mpr ⟨fun v later isCut isCut' => ?_, ih ⟨front ++ [u], by simpa using split⟩⟩
      obtain ⟨between, back, rfl⟩ := List.append_of_mem later
      have whole : s.tokens = (front ++ u :: between) ++ v :: back := by simpa using split.symm
      exact ((Lexer.run_order whole isCut').2 u (by simp) isCut).le
  exact suffix _ List.suffix_rfl

theorem begin_le {u : Token} (member : u ∈ s.tokens) (isCut : u.kind.isCut = true) : s.begin ≤ u.start := by
  obtain ⟨front, back, split⟩ := List.append_of_mem member
  exact (Lexer.run_order split isCut).1.le

theorem start_le_stop {u : Token} (member : u ∈ s.tokens) : u.start ≤ u.stop := by
  rw [Token.stop, ← (Lexer.run_cut member).extent]
  exact Lexer.le_advance _ _

namespace Left

variable {c c' : Cursor}

theorem lexed (left : s.Left c) : s.Lexed s.tokens := left.cuts.lexed

theorem edge (left : s.Left c) : s.Edge c.endLine c.endColumn := by
  rcases left.last with begun | ⟨u, member, isInked, ends⟩
  · obtain ⟨line, column⟩ := Prod.mk.inj (toLex_inj.mp begun)
    rw [line, column]
    exact left.cuts.edge
  · obtain ⟨line, column⟩ := Prod.mk.inj (toLex_inj.mp ends)
    rw [← line, ← column]
    refine .ends left.lexed member fun isFeed => ?_
    rw [isFeed] at isInked
    cases isInked

theorem ordered (left : s.Left c) :
    c.rest.Pairwise fun u v => u.kind.isCut = true → v.kind.isCut = true → u.stop ≤ v.start :=
  s.ordered.sublist left.rest.sublist

theorem all (cuts : s.Cuts s.typeComments s.options s.body) (inside : s.lo ≤ s.begin) :
    s.Left ⟨s.tokens, s.options.startLine, s.options.startColumn⟩ :=
  ⟨cuts, List.suffix_rfl, fun _ => begin_le, inside, .inl rfl⟩

theorem behind (left : s.Left c) : (s.behind c.stop).Left c := ⟨left.cuts, left.rest, left.ahead, le_rfl, left.last⟩

theorem of_behind {place : Nat ×ₗ Nat} (left : (s.behind place).Left c) (inside : s.lo ≤ place) : s.Left c :=
  ⟨left.cuts, left.rest, left.ahead, inside.trans left.inside, left.last⟩

theorem begins (left : s.Left c) {u : Token} {later : List Token} (heq : c.rest = u :: later)
    (isSolid : u.kind.isSolid = true) (m : Mark) (here : m.start = u.start) : s.Begins m := by
  have next : u ∈ c.rest := by simp [heq]
  have isCut := TokenKind.isCut_of_isInked (TokenKind.isInked_of_isSolid isSolid)
  refine ⟨here ▸ left.inside.trans (left.ahead u next isCut), _, _, left.cuts, u, left.rest.subset next, isSolid, ?_⟩
  exact here.symm

theorem next {o : ParseOptions} {t : Token} (left : s.Left c) (run : Parser.next o c = some (t, c')) :
    s.Left c' ∧ (t.kind.isInked = true → t.start ≤ c'.stop) := by
  have whole := next_inv run
  have rest : c'.rest <:+ s.tokens := (whole ▸ List.suffix_cons t c'.rest : c'.rest <:+ c.rest).trans left.rest
  have member : t ∈ s.tokens := left.rest.subset (by simp [whole])
  have stop := next_stop run
  split at stop
  case isTrue isInked =>
    have isCut := TokenKind.isCut_of_isInked isInked
    have ends : t.stop = c'.stop := congrArg toLex stop.symm
    have startStop : t.start ≤ c'.stop := ends ▸ start_le_stop member
    have inside := left.inside.trans ((left.ahead t (by simp [whole]) isCut).trans startStop)
    refine ⟨⟨left.cuts, rest, fun u later isLater => ?_, inside, .inr ⟨t, member, isInked, ends⟩⟩, fun _ => startStop⟩
    have order := left.ordered
    rw [whole] at order
    exact ends ▸ (List.pairwise_cons.mp order).1 u later isCut isLater
  case isFalse =>
    have same : c'.stop = c.stop := congrArg toLex stop
    refine ⟨⟨left.cuts, rest, fun u later => ?_, ?_, ?_⟩, fun isInked => ?_⟩
    · exact same ▸ left.ahead u (by simp [whole, later])
    · exact same ▸ left.inside
    · exact same ▸ left.last
    · contradiction

end Left

/-- On tokens of the text the step only goes forward, and what it builds comes from the source. -/
def Sound (s : Reading) (p : Parser α) : Prop :=
  ∀ (c c' : Cursor) (a : α), s.Left c → p { version := s.version } c = some (a, c') → s.Left c' ∧ s.Good a

/-! ## Steps -/

namespace Sound

variable {p q : Parser α}

theorem pure {a : α} (h : s.Good a) : s.Sound (Pure.pure a : Parser α) := by
  intro c c' b hleft hrun
  cases hrun
  exact ⟨hleft, h⟩

theorem bindWith {P : α → Prop} {f : α → Parser β} (hp : s.Sound p)
    (hP : ∀ (c c' : Cursor) (a : α), s.Left c → p { version := s.version } c = some (a, c') → P a)
    (hf : ∀ a, s.Good a → P a → s.Sound (f a)) : s.Sound (p >>= f) := by
  intro c c' b hleft hrun
  obtain ⟨a, c₁, hfirst, hrest⟩ := bind_inv hrun
  obtain ⟨hleft₁, ha⟩ := hp c c₁ a hleft hfirst
  exact hf a ha (hP c c₁ a hleft hfirst) c₁ c' b hleft₁ hrest

theorem bind {f : α → Parser β} (hp : s.Sound p) (hf : ∀ a, s.Good a → s.Sound (f a)) :
    s.Sound (p >>= f) :=
  hp.bindWith (fun _ _ _ _ _ => trivial) fun a ha _ => hf a ha

/-- A step whose result holds no tree, and what follows it. -/
theorem next {f : α → Parser β} (hp : s.Sound p) (hf : ∀ a, s.Sound (f a)) : s.Sound (p >>= f) :=
  hp.bind fun a _ => hf a

theorem fail : s.Sound (Parser.fail : Parser α) := by
  intro c c' a _ hrun
  cases hrun

theorem ite {condition : Prop} [Decidable condition] (hp : condition → s.Sound p)
    (hq : ¬condition → s.Sound q) : s.Sound (if condition then p else q) := by
  split
  · exact hp ‹_›
  · exact hq ‹_›

theorem orElse (hp : s.Sound p) (hq : s.Sound q) : s.Sound (Parser.orElse p q) := by
  intro c c' a hleft hrun
  unfold Parser.orElse at hrun
  split at hrun
  · exact hq c c' a hleft hrun
  · exact hp c c' a hleft hrun

theorem optional (hp : s.Sound p) : s.Sound (Parser.optional p) :=
  orElse (hp.bind fun _ ha => pure (good_some.2 ha)) (pure good_none)

theorem ahead (hp : s.Sound p) : s.Sound (Parser.ahead p) := by
  intro c c' a hleft hrun
  unfold Parser.ahead at hrun
  split at hrun
  case h_1 b c₁ hfirst =>
    cases hrun
    exact ⟨hleft, (hp c c₁ a hleft hfirst).2⟩
  case h_2 => cases hrun

theorem test (hp : s.Sound p) : s.Sound (Parser.test p) :=
  orElse (hp.ahead.next fun _ => pure good_nothing) (pure good_nothing)

theorem guardThat {condition : Bool} : s.Sound (Parser.guardThat condition) :=
  ite (fun _ => pure good_nothing) fun _ => fail

theorem options : s.Sound Parser.options := by
  intro c c' a hleft hrun
  cases hrun
  exact ⟨hleft, good_nothing⟩

theorem needs {version : Nat} : s.Sound (Parser.needs version) := options.next fun _ => guardThat

/-! ## Tokens -/

theorem peek : s.Sound Parser.peek := by
  intro c c' t left run
  obtain ⟨-, -, rfl⟩ := peek_inv run
  exact ⟨left, good_nothing⟩

theorem take : s.Sound Parser.next := fun _ _ _ left run => ⟨(left.next run).1, good_nothing⟩

theorem takeIf {fits : Token → Bool} : s.Sound (Parser.takeIf fits) :=
  peek.next fun _ => ite (fun _ => take) fun _ => fail

theorem op {text : String} : s.Sound (Parser.op text) := takeIf

theorem word {text : String} : s.Sound (Parser.word text) := takeIf

theorem kind {k : TokenKind} : s.Sound (Parser.kind k) := takeIf

theorem atOp {text : String} : s.Sound (Parser.atOp text) := peek.next fun _ => pure good_nothing

theorem atWord {text : String} : s.Sound (Parser.atWord text) := peek.next fun _ => pure good_nothing

theorem takeOp {text : String} : s.Sound (Parser.takeOp text) :=
  atOp.next fun _ => ite (fun _ => take.next fun _ => pure good_nothing) fun _ => pure good_nothing

theorem takeWord {text : String} : s.Sound (Parser.takeWord text) :=
  atWord.next fun _ => ite (fun _ => take.next fun _ => pure good_nothing) fun _ => pure good_nothing

theorem name : s.Sound Parser.name := takeIf.next fun _ => pure good_nothing

/-- No line ends in a name. -/
theorem nameThen {f : String → Parser α} (hf : ∀ id, Text.Flat id.toList → s.Sound (f id)) :
    s.Sound (Parser.name >>= f) := by
  refine name.bindWith (P := fun id => Text.Flat id.toList) (fun c c' id left run => ?_) fun id _ => hf id
  obtain ⟨t, c₁, taken, last⟩ := bind_inv run
  cases last
  obtain ⟨whole, isName⟩ := takeIf_inv taken
  have letters := (Lexer.run_cut (left.rest.subset (whole ▸ List.mem_cons_self : t ∈ c.rest))).letters
  have words : ∀ c ∈ t.text, Number.isWordChar c = true := by
    simp only [Parser.isFreeName, Bool.or_eq_true, Bool.and_eq_true, decide_eq_true_eq] at isName
    rcases isName with isKind | ⟨isKind, -⟩ <;> rwa [isKind] at letters
  rw [String.toList_ofList]
  exact ⟨Text.not_mem_composed (by decide) (by decide) fun member => absurd (words _ member) (by decide),
    Text.not_mem_composed (by decide) (by decide) fun member => absurd (words _ member) (by decide)⟩

theorem here : s.Sound Parser.here := by
  intro c c' m left run
  obtain ⟨first, following, heq, rfl, rfl⟩ := here_inv run
  exact ⟨left, good_mark.2 ⟨rfl, .begins left.lexed (left.rest.subset (by simp [heq]))⟩⟩

/-- A step that notes its place and takes a token that begins with a character first. -/
theorem atHead {f : Mark → Parser α} (leads : ∀ m, (f m).Leads)
    (hf : ∀ m, s.Good m → s.Begins m → s.Sound (f m)) : s.Sound (Parser.here >>= f) := by
  intro c c' a left run
  obtain ⟨m, c₁, begun, rest⟩ := bind_inv run
  obtain ⟨left₁, good⟩ := here c c₁ m left begun
  obtain ⟨first, following, heq, rfl, rfl⟩ := here_inv begun
  obtain ⟨u, later, same, isSolid⟩ := leads _ _ _ _ _ rest
  obtain ⟨rfl, -⟩ := List.cons.inj (heq.symm.trans same)
  exact hf _ good (left.begins heq isSolid _ rfl) c₁ c' a left₁ rest

/-- A step that looks at the next token and notes its place. -/
theorem peekHere {f : Token → Mark → Parser α}
    (hf : ∀ t m, s.Good m → (t.kind.isSolid = true → s.Begins m) → s.Sound (f t m)) :
    s.Sound (Parser.peek >>= fun t => Parser.here >>= f t) := by
  intro c c' a left run
  obtain ⟨t, c₁, peeked, more⟩ := bind_inv run
  obtain ⟨later, same, rfl⟩ := peek_inv peeked
  obtain ⟨m, c₂, begun, rest⟩ := bind_inv more
  obtain ⟨left₂, good⟩ := here c₁ c₂ m left begun
  obtain ⟨first, following, heq, rfl, rfl⟩ := here_inv begun
  obtain ⟨rfl, -⟩ := List.cons.inj (heq.symm.trans same)
  exact hf _ _ good (fun isSolid => left.begins heq isSolid _ rfl) c₂ c' a left₂ rest

/-! ## Nodes and lists -/

/-- A node other than a text, a formatted literal, a call and a statement that may be removed. -/
theorem node {start : Mark} {kind : Kind} {slots : List (List Tree)}
    (hstart : s.Good start) (h : kind.isOrdinary slots = true ∧ s.Good slots) :
    s.Sound (Parser.node start kind slots) := by
  intro c c' t hleft hrun
  cases hrun
  obtain ⟨unlabelled, hedge⟩ := good_mark.1 hstart
  exact ⟨hleft, good_tree.2 (built_above ⟨unlabelled, hedge, hleft.edge⟩ h)⟩

/-- A statement that may be removed: a function with its decorators, or one that binds a name. -/
theorem removable (w : s.Whole) {start : Mark} {kind : Kind} {slots : List (List Tree)} (hstart : s.Good start)
    (begins : s.Begins start) (h : kind.isRemovable = true ∧ s.Good slots) (oneLine : kind.isOneLine = true)
    (decorators : ∀ m, ∀ d ∈ (Tree.node m kind slots).decorators, s.Leads d) :
    s.Sound (Parser.node start kind slots) := by
  intro c c' t left run
  cases run
  obtain ⟨isRemovable, good⟩ := h
  obtain ⟨unlabelled, edge⟩ := good_mark.1 hstart
  have shaped : kind.isShaped slots = true := by
    cases kind <;> first | rfl | cases isRemovable
  have closes : s.Closes c.stop := by
    have begun : s.begin = toLex (1, 0) := by rw [begin, w.options]
    have same : s.tokens = (Lexer.run { typeComments := s.typeComments, version := s.version } s.text).tokens := by
      rw [tokens, w.options, w.body]
    exact left.last.imp (·.trans begun) fun ⟨u, member, ends⟩ => ⟨u, same ▸ member, ends⟩
  refine ⟨left, good_tree.2 (.node { unlabelled, shaped, oneLine, spans := fun _ => ⟨unlabelled, edge, left.edge⟩,
                                     spelled := fun text marked isText => ?_, decorators := decorators _,
                                     call := fun isCall => ?_,
                                     removable := fun _ => ⟨begins.starts, closes⟩ } (good_slots.mp good))⟩
  · rw [isText] at isRemovable
    cases isRemovable
  · rw [isCall] at isRemovable
    cases isRemovable

theorem binding (w : s.Whole) {start : Mark} {kind : Kind} {slots : List (List Tree)} (hstart : s.Good start)
    (begins : s.Begins start) (h : kind.isBinding = true ∧ s.Good slots) :
    s.Sound (Parser.node start kind slots) := by
  obtain ⟨isBinding, good⟩ := h
  refine .removable w hstart begins ⟨Kind.isRemovable_of_isBinding isBinding, good⟩ (by cases kind <;> first | rfl | cases isBinding)
    fun m => ?_
  have none : (Tree.node m kind slots).decorators = [] := by
    cases kind <;> first | rfl | cases isBinding
  rw [none]
  exact List.forall_mem_nil _

theorem repeatFrom (hp : s.Sound p) (fuel : Nat) {done : List α} (hdone : s.Good done) :
    s.Sound (Parser.repeatFrom p fuel done) := by
  induction fuel generalizing done with
  | zero => exact pure (good_reverse.2 hdone)
  | succ fuel ih =>
    refine hp.optional.bind fun found hfound => ?_
    cases found with
    | none => exact pure (good_reverse.2 hdone)
    | some a => exact ih (good_cons.2 ⟨good_some.1 hfound, hdone⟩)

theorem many (hp : s.Sound p) : s.Sound (Parser.many p) :=
  fun c => hp.repeatFrom (c.rest.length + 1) good_nil c

theorem many_all {P : α → Prop} (hp : s.Sound p)
    (each : ∀ (c c' : Cursor) (a : α), s.Left c → p { version := s.version } c = some (a, c') → P a)
    {c c' : Cursor} {found : List α} (hleft : s.Left c)
    (hrun : Parser.many p { version := s.version } c = some (found, c')) : ∀ a ∈ found, P a := by
  have repeated : ∀ (fuel : Nat) (done : List α) (c : Cursor), s.Left c → (∀ a ∈ done, P a) →
      Parser.repeatFrom p fuel done { version := s.version } c = some (found, c') → ∀ a ∈ found, P a := by
    intro fuel
    induction fuel with
    | zero =>
      intro done c _ hdone hrun
      cases hrun
      simpa using hdone
    | succ fuel ih =>
      intro done c hleft hdone hrun
      obtain ⟨next, c₁, hnext, hloop⟩ := bind_inv hrun
      rcases optional_inv hnext with ⟨a, rfl, hstep⟩ | ⟨rfl, -⟩
      · exact ih _ _ (hp c c₁ a hleft hstep).1 (List.forall_mem_cons.mpr ⟨each c c₁ a hleft hstep, hdone⟩) hloop
      · cases hloop
        simpa using hdone
  exact repeated _ _ c hleft (List.forall_mem_nil _) hrun

theorem commas (hp : s.Sound p) : s.Sound (Parser.commas p) :=
  hp.bind fun _ hfirst => (many (op.next fun _ => hp)).bind fun _ hrest =>
    pure (good_cons.2 ⟨hfirst, hrest⟩)

theorem commaList (hp : s.Sound p) : s.Sound (Parser.commaList p) :=
  hp.commas.bind fun _ hfound => takeOp.next fun _ => pure (good_pair.2 ⟨hfound, good_nothing⟩)

theorem leftFrom {start : Mark} {operator : Parser BinaryOperator} {operand : Parser Tree}
    (hstart : s.Good start) (hoperator : s.Sound operator) (hoperand : s.Sound operand) (fuel : Nat) {left : Tree}
    (hleft : s.Good left) : s.Sound (Parser.leftFrom start operator operand fuel left) := by
  induction fuel generalizing left with
  | zero => exact pure hleft
  | succ fuel ih =>
    have hmore : s.Sound (do
        let o ← operator
        let right ← operand
        Parser.node start (.binOp o) [[left], [right]]) :=
      hoperator.next fun _ => hoperand.bind fun _ hright => node hstart (by simp_all)
    refine hmore.optional.bind fun found hfound => ?_
    cases found with
    | none => exact pure hleft
    | some tree => exact ih (good_some.1 hfound)

theorem operatorFrom (operators : List (String × BinaryOperator)) :
    s.Sound (Parser.operatorFrom operators) := by
  refine peek.next fun t => ?_
  split
  · exact fail
  · exact take.next fun _ => ite (fun _ => needs.next fun _ => pure good_nothing) fun _ => pure good_nothing

theorem leftAssoc (operators : List (String × BinaryOperator)) {operand : Parser Tree}
    (hoperand : s.Sound operand) : s.Sound (Parser.leftAssoc operators operand) :=
  here.bind fun _ hstart => hoperand.bind fun _ hfirst c =>
    leftFrom hstart (operatorFrom operators) hoperand (c.rest.length + 1) hfirst c

end Sound


/-! ## Rules -/

def isBlock : Rule → Bool
  | .block | .statement => true
  | _ => false

/-- A rule that builds parts of statements. -/
class OfParts (rule : Rule) : Prop where
  isBlock : isBlock rule = false

instance : OfParts .expression := ⟨rfl⟩
instance : OfParts .disjunction := ⟨rfl⟩
instance : OfParts .inversion := ⟨rfl⟩
instance : OfParts .bitOr := ⟨rfl⟩
instance : OfParts .factor := ⟨rfl⟩
instance : OfParts .primary := ⟨rfl⟩
instance : OfParts .named := ⟨rfl⟩
instance : OfParts .starExpressions := ⟨rfl⟩
instance : OfParts .pattern := ⟨rfl⟩
instance : OfParts .closedPattern := ⟨rfl⟩

/-- Rules that are sound, those that build statements only on the source itself. -/
structure Obeys (r : Rules) : Prop where
  placed : Parser.PlacedRules r
  sound : ∀ (s : Reading) (rule : Rule), (isBlock rule = true → s.Whole) → s.Sound (r rule)

/-! ## Targets -/

theorem exists_of_targets? {usage : Usage} {ts targets : List Tree}
    (h : Parser.targets? usage ts = some targets) :
    ∀ target ∈ targets, ∃ t ∈ ts, Parser.target? usage t = some target := by
  induction ts generalizing targets with
  | nil => cases h; simp
  | cons t rest ih =>
    unfold Parser.targets? at h
    split at h
    case h_1 first others hfirst hothers =>
      cases h
      intro target htarget
      obtain rfl | hlater := List.mem_cons.1 htarget
      · exact ⟨t, by simp, hfirst⟩
      · obtain ⟨u, hu, heq⟩ := ih hothers target hlater
        exact ⟨u, List.mem_cons_of_mem t hu, heq⟩
    case h_2 => cases h

theorem exists_of_targetSlots? {usage : Usage} {slots targets : List (List Tree)}
    (h : Parser.targetSlots? usage slots = some targets) :
    ∀ slot' ∈ targets, ∃ slot ∈ slots, ∀ target ∈ slot', ∃ t ∈ slot,
      Parser.target? usage t = some target := by
  induction slots generalizing targets with
  | nil => cases h; simp
  | cons slot rest ih =>
    unfold Parser.targetSlots? at h
    split at h
    case h_1 first others hfirst hothers =>
      cases h
      intro slot' hslot'
      obtain rfl | hlater := List.mem_cons.1 hslot'
      · exact ⟨slot, by simp, exists_of_targets? hfirst⟩
      · obtain ⟨u, hu, heq⟩ := ih hothers slot' hlater
        exact ⟨u, List.mem_cons_of_mem slot hu, heq⟩
    case h_2 => cases h

theorem built_target? {usage : Usage} {t target : Tree} (h : s.Built t)
    (ht : Parser.target? usage t = some target) : s.Built target := by
  induction t using Tree.inductionOn generalizing target with
  | node m kind slots ih =>
    have htargets : ∀ {targets}, (∀ slot ∈ slots, ∀ t ∈ slot, s.Built t) →
        Parser.targetSlots? usage slots = some targets →
        ∀ slot' ∈ targets, ∀ target ∈ slot', s.Built target := by
      intro targets hbelow hslots slot' hslot' target htarget
      obtain ⟨slot, hslot, hall⟩ := exists_of_targetSlots? hslots slot' hslot'
      obtain ⟨u, hu, heq⟩ := hall target htarget
      exact ih slot hslot u hu (hbelow slot hslot u hu) heq
    cases h with
    | joined => simp [Parser.target?] at ht
    | node here below =>
      cases kind with
      | name =>
        simp only [Parser.target?, Option.some.injEq] at ht
        exact ht ▸ built_above (here.spans rfl) ⟨Bool.and_eq_true_iff.mpr ⟨here.shaped, here.oneLine⟩, good_slots.mpr below⟩
      | «attribute» | subscript =>
        simp only [Parser.target?, Option.some.injEq] at ht
        exact ht ▸ built_above (here.spans rfl) ⟨rfl, good_slots.mpr below⟩
      | starred =>
        simp only [Parser.target?] at ht
        split at ht
        · cases ht
        · obtain ⟨targets, hslots, rfl⟩ := Option.map_eq_some_iff.1 ht
          exact built_above (here.spans rfl) ⟨rfl, good_slots.mpr (htargets below hslots)⟩
      | list | tuple =>
        obtain ⟨targets, hslots, rfl⟩ := Option.map_eq_some_iff.1 ht
        exact built_above (here.spans rfl) ⟨rfl, good_slots.mpr (htargets below hslots)⟩
      | _ => simp [Parser.target?] at ht

namespace Obeys

variable {r : Rules} (h : Obeys r)
include h

theorem one (rule : Rule) [ofParts : OfParts rule] : s.Sound (Parser.one r rule) := by
  refine (h.sound s rule fun isBlock => absurd (ofParts.isBlock.symm.trans isBlock) (by decide)).bind fun found hfound => ?_
  split
  · exact .pure (good_cons.1 hfound).1
  · exact .fail

theorem starTarget : s.Sound (Parser.starTarget r) := by
  refine Sound.here.bind fun start hstart => Sound.takeOp.next fun hasStar => ?_
  extract_lets rest
  have hrest : ∀ t, s.Good t → s.Sound (rest t) := by
    intro t ht
    unfold rest
    split
    case h_1 target htarget => exact .pure (good_tree.2 (built_target? (good_tree.1 ht) htarget))
    case h_2 => exact .fail
  refine .ite (fun _ => ?_) fun _ => (h.one _).bind hrest
  exact (h.one _).bind fun inner hinner => Sound.guardThat.next fun _ =>
    .bind (.node hstart (by simp_all)) hrest

omit h in
/-- Items with commas between them; one alone stands for itself. -/
theorem items {kind : Kind} {start : Mark} {found : List Tree × Bool} (hstart : s.Good start)
    (hfound : s.Good found) (hkind : ∀ ts, kind.isOrdinary [ts] = true) :
    s.Sound (match found with
      | ([t], false) => pure t
      | (ts, _) => Parser.node start kind [ts]) := by
  split
  · exact .pure (by simp_all)
  · exact .node hstart (by simp_all)

theorem starTargets : s.Sound (Parser.starTargets r) :=
  Sound.here.bind fun _ hstart => h.starTarget.commaList.bind fun _ hfound => items hstart hfound fun _ => rfl

/-! ## Lists of expressions -/

theorem starred (inner : Rule) [OfParts inner] : s.Sound (Parser.starred r inner) :=
  Sound.here.bind fun _ hstart => Sound.op.next fun _ => (h.one _).bind fun _ ht => .node hstart (by simp_all)

theorem starExpression : s.Sound (Parser.starExpression r) :=
  Sound.atOp.next fun _ => .ite (fun _ => h.starred _) fun _ => h.one _

theorem starNamed : s.Sound (Parser.starNamed r) :=
  Sound.atOp.next fun _ => .ite (fun _ => h.starred _) fun _ => h.one _

theorem starExpressions : s.Sound (Parser.starExpressions r) :=
  Sound.here.bind fun _ hstart => h.starExpression.commaList.bind fun _ hfound => items hstart hfound fun _ => rfl

theorem yieldExpr : s.Sound (Parser.yieldExpr r) :=
  Sound.here.bind fun _ hstart => Sound.word.next fun _ => Sound.takeWord.next fun _ =>
    .ite (fun _ => (h.one _).bind fun _ ht => .node hstart (by simp_all))
      fun _ => (h.one _).optional.bind fun _ hvalue => .node hstart (by simp_all)

omit h in
theorem atWalrus : s.Sound Parser.atWalrus := .test (Sound.name.next fun _ => .op)

theorem named : s.Sound (Parser.named r) := by
  refine Sound.here.bind fun start hstart => atWalrus.next fun _ => .ite (fun _ => ?_) fun _ => ?_
  · exact Sound.nameThen fun id flat => .bind (.node hstart (by simpa [Text.Flat] using flat)) fun target htarget =>
      Sound.op.next fun _ => (h.one _).bind fun value hvalue => Sound.needs.next fun _ =>
        .node hstart (by simp_all)
  · exact (h.one _).bind fun t ht => Sound.atOp.next fun _ => Sound.guardThat.next fun _ => .pure ht

/-! ## Comprehensions -/

theorem clause : s.Sound (Parser.clause r) := by
  refine Sound.here.bind fun start hstart => Sound.takeWord.next fun isAsync => Sound.word.next fun _ =>
    h.starTargets.bind fun target htarget => Sound.word.next fun _ =>
    (h.one _).bind fun iterable hiterable => ?_
  refine (Sound.many (Sound.word.next fun _ => h.one .disjunction)).bind fun conditions hconditions => ?_
  have hnode : s.Sound (Parser.node start (.comprehension isAsync) [[target], [iterable], conditions]) :=
    .node hstart (by simp_all)
  exact .ite (fun _ => Sound.needs.next fun _ => hnode) fun _ => hnode

theorem clauses : s.Sound (Parser.clauses r) :=
  h.clause.bind fun _ hfirst => h.clause.many.bind fun _ hrest =>
    .pure (good_cons.2 ⟨hfirst, hrest⟩)

omit h in
theorem atClause : s.Sound Parser.atClause := Sound.peek.next fun _ => .pure good_nothing

/-! ## Parameters -/

theorem parameter (annotated starAnnotation : Bool) :
    s.Sound (Parser.parameter r annotated starAnnotation) := by
  refine Sound.here.bind fun start hstart => Sound.name.next fun id => ?_
  extract_lets rest
  have hrest : ∀ typed, s.Good typed → s.Sound (rest typed) := fun typed htyped => .node hstart (by simp_all)
  have hnone : s.Sound ((pure [] : Parser (List Tree)) >>= rest) := Sound.bind (.pure good_nil) hrest
  refine .ite (fun _ => Sound.takeOp.next fun _ => .ite (fun _ => ?_) fun _ => hnone) fun _ => hnone
  refine Sound.atOp.next fun _ => .ite (fun _ => ?_) fun _ => ?_
  · exact (h.starred _).bind fun t ht => .bind (.pure (by simp_all)) hrest
  · exact (h.one _).bind fun t ht => .bind (.pure (by simp_all)) hrest

omit h in
theorem afterParameter (annotated : Bool) {t : Tree} (ht : s.Built t) :
    s.Sound (Parser.afterParameter annotated t) := by
  refine Sound.takeOp.next fun comma => ?_
  extract_lets rest
  have hrest : ∀ comment, s.Sound (rest comment) := by
    intro comment
    unfold rest
    split
    case h_1 c m id old slots =>
      cases ht with
      | node here below =>
        have hbuilt : s.Built (.node m (.arg id (some c.text)) slots) :=
          built_above (here.spans rfl) ⟨rfl, good_slots.mpr below⟩
        exact .pure (by simpa using hbuilt)
    case h_2 => exact .pure (by simpa using ht)
  exact .ite (fun _ => Sound.kind.optional.next hrest) fun _ => Sound.next (.pure good_none) hrest

end Obeys

instance : Bears Parser.Parameters := ⟨fun p =>
  p.positionalOnly ++ p.positional ++ p.defaults ++ p.variadic ++ p.keywordOnly ++
    p.keywordDefaults ++ p.keywords⟩

theorem good_parameters {p : Parser.Parameters} : s.Good p ↔
    s.Good p.positionalOnly ∧ s.Good p.positional ∧ s.Good p.defaults ∧ s.Good p.variadic ∧
      s.Good p.keywordOnly ∧ s.Good p.keywordDefaults ∧ s.Good p.keywords := by
  simp only [Good, Bears.trees, List.flatMap_singleton', List.mem_append]
  grind

@[simp] theorem built_absent : s.Built Tree.absent := built_unplaced ⟨rfl, good_nil⟩

namespace Obeys

variable {r : Rules} (h : Obeys r)
include h

theorem parametersFrom (annotated : Bool) (stops : Token → Bool) (fuel : Nat)
    {p : Parser.Parameters} (hp : s.Good p) :
    s.Sound (Parser.parametersFrom r annotated stops fuel p) := by
  induction fuel generalizing p with
  | zero => exact .fail
  | succ fuel ih =>
    refine Sound.peek.next fun t => .ite (fun _ => ?stop) fun _ => .ite (fun _ => ?keywords)
      fun _ => .ite (fun _ => ?star) fun _ => .ite (fun _ => ?slash) fun _ => ?plain
    case stop => exact Sound.guardThat.next fun _ => .pure hp
    case keywords =>
      exact Sound.take.next fun _ => Sound.guardThat.next fun _ =>
        (h.parameter _ _).bind fun a ha => (afterParameter _ (good_tree.1 ha)).bind
          fun ⟨a, _⟩ ha => Sound.peek.next fun _ => Sound.guardThat.next fun _ =>
            .pure (by simp_all [good_parameters])
    case star =>
      refine Sound.take.next fun _ => Sound.guardThat.next fun _ => Sound.takeOp.next fun _ =>
        .ite (fun _ => ih (by simp_all [good_parameters])) fun _ => ?_
      exact (h.parameter _ _).bind fun a ha => (afterParameter _ (good_tree.1 ha)).bind
          fun ⟨a, _⟩ ha => Sound.peek.next fun _ => Sound.guardThat.next fun _ =>
            ih (by simp_all [good_parameters])
    case slash =>
      exact Sound.take.next fun _ => Sound.guardThat.next fun _ => Sound.takeOp.next fun _ =>
        Sound.peek.next fun _ => Sound.guardThat.next fun _ => Sound.needs.next fun _ =>
          ih (by simp_all [good_parameters])
    case plain =>
      refine (h.parameter _ _).bind fun a ha => Sound.takeOp.next fun hasPreset => ?_
      extract_lets rest
      have hrest : ∀ preset, s.Good preset → s.Sound (rest preset) := by
        intro preset hpreset
        refine (afterParameter _ (good_tree.1 ha)).bind fun ⟨a, _⟩ ha =>
          Sound.peek.next fun _ => Sound.guardThat.next fun _ => .ite (fun _ => ?_) fun _ =>
            .ite (fun _ => .fail) fun _ => ih (by simp_all [good_parameters])
        cases preset <;> exact ih (by simp_all [good_parameters])
      exact .ite (fun _ => (h.one _).bind fun d hd => .bind (.pure (by simpa using hd)) hrest)
        fun _ => .bind (.pure good_none) hrest

theorem parameters (annotated : Bool) (stops : Token → Bool) :
    s.Sound (Parser.parameters r annotated stops) := by
  intro c
  refine Sound.bind (h.parametersFrom annotated stops _ (by simp [good_parameters])) (fun p hp => ?_) c
  refine .pure (good_tree.2 (built_unplaced ⟨rfl, ?_⟩))
  simp only [good_parameters, good_list, good_tree] at hp
  simp [good_list]
  grind

theorem lambdaExpr : s.Sound (Parser.lambdaExpr r) :=
  Sound.here.bind fun _ hstart => Sound.word.next fun _ => (h.parameters _ _).bind fun _ hps =>
    Sound.op.next fun _ => (h.one _).bind fun _ hbody => .node hstart (by simp_all)

end Obeys

/-! ## Literals -/

/-- A field of a formatted literal among the tokens of the text, no earlier than calls may begin. -/
def HasField (s : Reading) (expression : Text) (line column : Nat) : Prop :=
  ∃ t pieces, t ∈ s.tokens ∧ s.lo ≤ t.start ∧ t.kind = .string ∧ (StringLiteral.ofToken t).split = .ok pieces ∧
    StringLiteral.Field pieces expression line column

theorem mem_joinPlain {parts : List (List CodePoint ⊕ Tree)} {t : Tree}
    (h : .inr t ∈ Parser.joinPlain parts) : .inr t ∈ parts := by
  fun_induction Parser.joinPlain parts with
  | case1 a rest b more heq ih => simp_all
  | case2 a rest more ih => simp_all
  | case3 u rest ih => simp_all; grind
  | case4 => exact h

theorem built_joined {span : Mark} {marked : Bool} {parts : List (List CodePoint ⊕ Tree)} (hspan : s.Spans span)
    (h : s.Good parts) : s.Built (.node span .joinedStr [Parser.partTrees span marked parts]) := by
  have hpart : ∀ t ∈ Parser.partTrees span marked parts,
      (t.mark = span ∧ t.kind.isText = true ∧ t.slots = []) ∨ s.Built t := by
    intro t ht
    obtain ⟨part, hpart, heq⟩ := List.mem_filterMap.1 ht
    split at heq
    · cases heq
    · rename_i points _
      cases heq
      rcases Scalar.ofPoints_cases points with ⟨text, -, isText⟩ | ⟨codes, isCodes⟩
      · exact .inl ⟨rfl, by rw [isText]; rfl, rfl⟩
      · exact .inr (isCodes ▸ built_above hspan ⟨rfl, good_nil⟩)
    · cases heq
      exact .inr (good_tree.1 (good_list.1 h _ (mem_joinPlain hpart)))
  refine .joined hspan ?_ ?_ <;> simp only [List.mem_singleton, forall_eq] <;> intro t ht
  · rcases hpart t ht with ⟨hmark, -⟩ | hbuilt
    · rw [hmark, hspan.unlabelled]
    · exact hbuilt.label_eq
  · intro hother
    rcases hpart t ht with ⟨-, htext, hslots⟩ | hbuilt
    · exact absurd hslots (hother htext)
    · exact hbuilt

instance : LawfulMonad Parser := .mk' Parser
  (by
    intro α p
    funext o c
    change Parser.bind p (fun a => Parser.pure (id a)) o c = p o c
    unfold Parser.bind
    split <;> simp_all [Parser.pure])
  (by intros; rfl)
  (by
    intro α β γ p f g
    funext o c
    change Parser.bind (Parser.bind p f) g o c = Parser.bind p (fun a => Parser.bind (f a) g) o c
    unfold Parser.bind
    split <;> rename_i heq <;> split at heq <;> simp_all)

omit [Bears β] in
theorem Sound.mapM {f : β → Parser α} {l : List β} (hf : ∀ b ∈ l, s.Sound (f b)) :
    s.Sound (l.mapM f) := by
  induction l with
  | nil => exact .pure good_nil
  | cons b l ih =>
    rw [List.mapM_cons]
    exact (hf b (by simp)).bind fun a ha => (ih fun b hb => hf b (by simp [hb])).bind
      fun rest hrest => .pure (good_cons.2 ⟨ha, hrest⟩)

theorem kind_inv {k : TokenKind} {o : ParseOptions} {c c' : Cursor} {t : Token}
    (h : Parser.kind k o c = some (t, c')) : c.rest = t :: c'.rest ∧ t.kind = k :=
  (takeIf_inv h).imp_right of_decide_eq_true

theorem repeatFrom_inv {p : Parser Token} {fits : Token → Prop} {o : ParseOptions}
    (hp : ∀ {c c' t}, p o c = some (t, c') → c.rest = t :: c'.rest ∧ fits t) {fuel : Nat}
    {done found : List Token} {c c' : Cursor}
    (h : Parser.repeatFrom p fuel done o c = some (found, c')) :
    ∃ more, found = done.reverse ++ more ∧ c.rest = more ++ c'.rest ∧ ∀ t ∈ more, fits t := by
  induction fuel generalizing done c with
  | zero => cases h; exact ⟨[], by simp⟩
  | succ fuel ih =>
    obtain ⟨next, c₁, hnext, hloop⟩ := bind_inv h
    obtain ⟨t, rfl, htake⟩ | ⟨rfl, rfl⟩ := optional_inv hnext
    · obtain ⟨hrest, hfits⟩ := hp htake
      obtain ⟨more, rfl, hmore, hall⟩ := ih hloop
      refine ⟨t :: more, by simp, by simp [hrest, hmore], ?_⟩
      exact List.forall_mem_cons.2 ⟨hfits, hall⟩
    · cases hloop
      exact ⟨[], by simp⟩

theorem many_kind_inv {k : TokenKind} {o : ParseOptions} {c c' : Cursor} {found : List Token}
    (h : Parser.many (Parser.kind k) o c = some (found, c')) :
    c.rest = found ++ c'.rest ∧ ∀ t ∈ found, t.kind = k := by
  obtain ⟨more, rfl, hrest, hkind⟩ := repeatFrom_inv kind_inv h
  exact ⟨hrest, hkind⟩

namespace Obeys

variable {r : Rules} (h : Obeys r)
include h

theorem fieldExpression {expression : Text} {line column : Nat}
    (hfield : s.HasField expression line column) :
    s.Sound (Parser.fieldExpression r expression line column) := by
  intro c c' t left run
  obtain ⟨literal, pieces, member, inside, isString, split, field⟩ := hfield
  unfold Parser.fieldExpression at run
  simp only at run
  split at run
  case h_1 tree c₁ inner =>
    cases run
    let within : Reading := { s with options := { startLine := line, startColumn := column, version := s.version }
                                     body := '(' :: (expression ++ [')']) }
    have start : within.Left ⟨within.tokens, line, column⟩ :=
      .all (.field left.cuts member isString split field)
        (inside.trans (StringLiteral.field_inside member isString split field).1)
    exact ⟨left, (h.one .starExpressions _ _ _ start inner).2⟩
  case h_2 => cases run

theorem pieceParts {span : Mark} {fuel : Nat} {pieces : List Piece} (hspan : s.Spans span)
    (hfields : ∀ expression line column, StringLiteral.Field pieces expression line column →
      s.HasField expression line column) : s.Sound (Parser.pieceParts r span fuel pieces) := by
  induction fuel generalizing pieces with
  | zero => exact .fail
  | succ fuel ih =>
    cases pieces with
    | nil => exact .pure good_nil
    | cons piece rest =>
      have hrest := ih fun e l c hfield => hfields e l c (.later hfield)
      cases piece with
      | plain text =>
        exact hrest.bind fun more hmore => .pure (by simpa using hmore)
      | field expression line column shown conversion format =>
        refine (h.fieldExpression (hfields _ _ _ .here)).bind fun value hvalue => ?_
        extract_lets next
        have hnext : ∀ spec, s.Good spec → s.Sound (next spec) := by
          intro spec hspec
          refine hrest.bind fun more hmore => .pure ?_
          have hshown : s.Good (shown.toList.map
              fun text => (Sum.inl (text.map .char) : List CodePoint ⊕ Tree)) := by
            cases shown <;> simp
          have hfield : s.Built (.node span (.formattedValue conversion) [[value], spec]) :=
            built_above hspan (by simp [good_tree.1 hvalue, hspec])
          simp [*]
        split
        · exact .bind (.pure good_nil) hnext
        · rename_i inner
          refine (ih fun e l c hfield => hfields e l c (.inFormat hfield)).bind fun parts hparts => ?_
          exact .bind (.pure (by simpa using built_joined hspan hparts)) hnext

theorem tokenParts {span : Mark} {t : Token} (hspan : s.Spans span) (hmember : t ∈ s.tokens)
    (inside : s.lo ≤ t.start) (hstring : t.kind = .string) :
    s.Sound (Parser.tokenParts r span t) := by
  unfold Parser.tokenParts
  refine .ite (fun _ => Sound.needs.next fun _ => ?_) fun _ => ?_
  · split
    case h_1 pieces hsplit =>
      have hparts : s.Sound (Parser.pieceParts r span (2 * t.text.length + 2) pieces) :=
        h.pieceParts hspan fun e l c hfield => ⟨t, pieces, hmember, inside, hstring, hsplit, hfield⟩
      exact .ite (fun _ => Sound.needs.next fun _ => hparts) fun _ => hparts
    case h_2 => exact .fail
  · split
    · exact .pure (by simp)
    · exact .fail

omit h in
theorem tokenParts_plain {span : Mark} {t : Token} {o : ParseOptions} {c c' : Cursor}
    {parts : List (List CodePoint ⊕ Tree)} (hplain : (StringLiteral.ofToken t).isFormatted = false)
    (hrun : Parser.tokenParts r span t o c = some (parts, c')) :
    ∃ text, (StringLiteral.ofToken t).text = .ok text ∧ parts = [.inl text] := by
  unfold Parser.tokenParts at hrun
  simp only [hplain, Bool.false_eq_true, if_false] at hrun
  cases htext : (StringLiteral.ofToken t).text with
  | ok text => rw [htext] at hrun; cases hrun; exact ⟨text, rfl, rfl⟩
  | error => rw [htext] at hrun; cases hrun

omit h in
theorem mapM_tokenParts_plain {span : Mark} {run : List Token} {o : ParseOptions} {c c' : Cursor}
    {parts : List (List (List CodePoint ⊕ Tree))}
    (hplain : ∀ t ∈ run, (StringLiteral.ofToken t).isFormatted = false)
    (hrun : run.mapM (Parser.tokenParts r span) o c = some (parts, c')) :
    ∃ texts, run.mapM (fun t => (StringLiteral.ofToken t).text) = .ok texts ∧
      parts = texts.map fun text => [.inl text] := by
  induction run generalizing c parts with
  | nil => cases hrun; exact ⟨[], rfl, rfl⟩
  | cons t run ih =>
    rw [List.mapM_cons] at hrun
    obtain ⟨first, c₁, hfirst, hrun⟩ := bind_inv hrun
    obtain ⟨others, c₂, hothers, hrun⟩ := bind_inv hrun
    cases hrun
    obtain ⟨text, htext, rfl⟩ := tokenParts_plain (hplain t (by simp)) hfirst
    obtain ⟨texts, htexts, rfl⟩ := ih (fun u hu => hplain u (by simp [hu])) hothers
    exact ⟨text :: texts, by rw [List.mapM_cons, htext, htexts]; rfl, rfl⟩

omit h in
theorem flatten_plain (texts : List (List CodePoint)) : texts.flatten =
    (texts.map fun text => [(Sum.inl text : List CodePoint ⊕ Tree)]).flatten.flatMap fun part =>
      match part with
      | .inl text => text
      | .inr _ => [] := by
  induction texts with
  | nil => rfl
  | cons text texts ih => simpa using ih

/-- String tokens that follow each other make a literal that they spell. -/
theorem strings : s.Sound (Parser.strings r) := by
  intro c c' t hleft hrun
  obtain ⟨start, c₁, hhere, hrest₁⟩ := bind_inv hrun
  obtain ⟨first, following, hfirst, rfl, rfl⟩ := here_inv hhere
  clear hrun
  obtain ⟨run, c₂, hmany, hrun⟩ := bind_inv hrest₁
  obtain ⟨hrest, hstrings⟩ := many_kind_inv hmany
  obtain ⟨hleft₂, -⟩ := Sound.many Sound.kind _ _ _ hleft hmany
  have hrunIn : run <:+: s.tokens := (hrest ▸ (List.prefix_append run c₂.rest).isInfix :
    run <:+: c₁.rest).trans hleft.rest.isInfix
  have inside : ∀ t ∈ run, s.lo ≤ t.start := fun t ht =>
    hleft.inside.trans (hleft.ahead t (by simp [hrest, ht]) (by rw [hstrings t ht]; rfl))
  have hstart : s.Edge first.line first.column := .begins hleft.lexed (hleft.rest.subset (hfirst ▸ .head _))
  have hspan : s.Spans ⟨0, first.line, first.column, c₂.endLine, c₂.endColumn, none⟩ :=
    ⟨rfl, hstart, hleft₂.edge⟩
  have hparts : ∀ span, s.Spans span → s.Sound (run.mapM (Parser.tokenParts r span)) :=
    fun span hspan => .mapM fun t ht => h.tokenParts hspan (hrunIn.subset ht) (inside t ht) (hstrings t ht)
  obtain ⟨whole, c₃, hwhole, hrun⟩ := bind_inv hrun
  cases hwhole
  simp only at hrun
  split at hrun
  · split at hrun
    · split at hrun
      · cases hrun
        exact ⟨hleft₂, good_tree.2 (built_above hspan ⟨rfl, good_nil⟩)⟩
      · cases hrun
    · cases hrun
  · rename_i hbytes
    obtain ⟨parts, c₄, hmapM, hrun⟩ := bind_inv hrun
    obtain ⟨hleft₄, hgood⟩ := hparts _ hspan _ _ _ hleft₂ hmapM
    split at hrun
    · cases hrun
      exact ⟨hleft₄, good_tree.2 (built_joined hspan (good_flatten.2 hgood))⟩
    · rename_i hformatted
      cases hrun
      have hplain : ∀ t ∈ run, (StringLiteral.ofToken t).isBytes = false ∧
          (StringLiteral.ofToken t).isFormatted = false := by
        simp only [List.any_map, List.any_eq_true, not_exists, not_and, Function.comp_apply,
          Bool.not_eq_true] at hbytes hformatted
        exact fun t ht => ⟨hbytes t ht, hformatted t ht⟩
      obtain ⟨texts, htexts, rfl⟩ := mapM_tokenParts_plain (fun t ht => (hplain t ht).2) hmapM
      refine ⟨hleft₄, good_tree.2 (.node { unlabelled := rfl, shaped := rfl, oneLine := rfl, spans := fun _ => hspan, spelled := ?_,
                                           decorators := List.forall_mem_nil _, call := nofun,
                                           removable := nofun } (by simp))⟩
      intro text marked isText
      have spelled : texts.flatten = text.map .char := by
        obtain ⟨found, chars, isFound⟩ | ⟨codes, isCodes⟩ := Scalar.ofPoints_cases _
        · rw [isFound] at isText
          cases isText
          exact (flatten_plain texts).trans chars
        · rw [isCodes] at isText
          cases isText
      refine ⟨run, ⟨s.tokens, hleft.lexed, hrunIn⟩, ⟨hstrings, hplain, texts, htexts, spelled⟩, ?_⟩
      intro t ht
      cases run with
      | nil => cases ht
      | cons head run =>
        rw [List.cons_append, hfirst] at hrest
        obtain ⟨rfl, -⟩ := List.cons.inj hrest
        cases ht
        exact ⟨rfl, rfl⟩

/-! ## Atoms -/

omit h in
theorem rest_items {found : Option (List α × Bool)} (hfound : s.Good found) :
    s.Good ((found.map Prod.fst).getD []) := by
  cases found with
  | none => simp
  | some found => exact (good_pair.1 (good_some.1 hfound)).1

theorem parenthesized : s.Sound (Parser.parenthesized r) := by
  refine Sound.here.bind fun start hstart => Sound.op.next fun _ => Sound.takeOp.next fun _ =>
    .ite (fun _ => .node hstart (by simp)) fun _ => Sound.atWord.next fun _ => .ite (fun _ => ?_) fun _ => ?_
  · exact h.yieldExpr.bind fun t ht => Sound.op.next fun _ => .pure ht
  · refine h.starNamed.bind fun first hfirst => atClause.next fun _ => .ite (fun _ => ?_) fun _ =>
      Sound.takeOp.next fun _ => .ite (fun _ => ?_) fun _ => ?_
    · exact h.clauses.bind fun cs hcs => Sound.op.next fun _ => .node hstart (by simp_all)
    · exact h.starNamed.commaList.optional.bind fun rest hrest => Sound.op.next fun _ =>
        .node hstart (by simpa using ⟨good_tree.1 hfirst, rest_items hrest⟩)
    · exact Sound.op.next fun _ => Sound.guardThat.next fun _ => .pure hfirst

theorem bracketed : s.Sound (Parser.bracketed r) := by
  refine Sound.here.bind fun start hstart => Sound.op.next fun _ => Sound.takeOp.next fun _ =>
    .ite (fun _ => .node hstart (by simp)) fun _ => h.starNamed.bind fun first hfirst =>
    atClause.next fun _ => .ite (fun _ => ?_) fun _ => Sound.takeOp.next fun _ => ?_
  · exact h.clauses.bind fun cs hcs => Sound.op.next fun _ => .node hstart (by simp_all)
  · extract_lets next
    have hnext : ∀ rest, s.Good rest → s.Sound (next rest) := fun rest hrest =>
      Sound.op.next fun _ => .node hstart (by simpa using ⟨good_tree.1 hfirst, rest_items hrest⟩)
    exact .ite (fun _ => h.starNamed.commaList.optional.bind hnext) fun _ => .bind (.pure good_none) hnext

theorem entry : s.Sound (Parser.entry r) :=
  Sound.takeOp.next fun _ => .ite (fun _ => (h.one _).bind fun v hv => .pure (by simp_all))
    fun _ => (h.one _).bind fun k hk => Sound.op.next fun _ => (h.one _).bind fun v hv =>
      .pure (by simp_all)

theorem dictRest {start : Mark} {k v : Tree} (hstart : s.Good start) (hk : s.Built k) (hv : s.Built v) :
    s.Sound (Parser.dictRest r start k v) := by
  refine atClause.next fun _ => .ite (fun _ => ?_) fun _ => Sound.takeOp.next fun _ => ?_
  · exact h.clauses.bind fun cs hcs => Sound.op.next fun _ => .node hstart (by simp_all)
  · extract_lets next
    have hnext : ∀ rest, s.Good rest → s.Sound (next rest) := by
      intro rest hrest
      refine Sound.op.next fun _ => ?_
      have hentries : s.Good ((k, v) :: (rest.map Prod.fst).getD []) :=
        good_cons.2 ⟨good_pair.2 ⟨good_tree.2 hk, good_tree.2 hv⟩, rest_items hrest⟩
      exact .node hstart ⟨rfl, good_cons.2 ⟨hentries.firsts, good_cons.2 ⟨hentries.seconds, good_nil⟩⟩⟩
    exact .ite (fun _ => h.entry.commaList.optional.bind hnext) fun _ => .bind (.pure good_none) hnext

theorem braced : s.Sound (Parser.braced r) := by
  refine Sound.here.bind fun start hstart => Sound.op.next fun _ => Sound.takeOp.next fun _ =>
    .ite (fun _ => .node hstart (by simp)) fun _ => Sound.atOp.next fun _ => .ite (fun _ => ?_) fun _ => ?_
  · exact h.entry.bind fun ⟨k, v⟩ hkv => h.dictRest hstart (by simp_all) (by simp_all)
  · refine atWalrus.next fun _ => h.starNamed.bind fun first hfirst => Sound.takeOp.next fun _ =>
      .ite (fun _ => ?_) fun _ => atClause.next fun _ => .ite (fun _ => ?_) fun _ =>
      Sound.takeOp.next fun _ => ?_
    · exact (h.one _).bind fun v hv => h.dictRest hstart (by simp_all) (by simp_all)
    · exact h.clauses.bind fun cs hcs => Sound.op.next fun _ => .node hstart (by simp_all)
    · extract_lets next
      have hnext : ∀ rest, s.Good rest → s.Sound (next rest) := fun rest hrest =>
        Sound.op.next fun _ => .node hstart (by simpa using ⟨good_tree.1 hfirst, rest_items hrest⟩)
      exact .ite (fun _ => h.starNamed.commaList.optional.bind hnext) fun _ => .bind (.pure good_none) hnext

omit h in
theorem value_ordinary (number : Text) (marked : Bool) :
    (Kind.constant (Number.value number) marked).isOrdinary [] = true := by
  unfold Number.value
  simp only
  split
  case h_7 =>
    split
    · split
      · rfl
      · split <;> rfl
    · rfl
  all_goals rfl

omit h in
theorem number : s.Sound Parser.number := by
  refine Sound.here.bind fun start hstart => Sound.kind.next fun t => Sound.guardThat.next fun _ => ?_
  have hnode : s.Sound (Parser.node start (.constant (Number.value t.text) false) []) :=
    .node hstart ⟨value_ordinary t.text false, good_nil⟩
  exact .ite (fun _ => Sound.needs.next fun _ => hnode) fun _ => hnode

theorem atom : s.Sound (Parser.atom r) := by
  refine Sound.here.bind fun start hstart => Sound.peek.next fun t => ?_
  have hname : s.Sound (Parser.name >>= fun id => Parser.node start (.name id .load) []) :=
    Sound.nameThen fun id flat => .node hstart (by simpa [Text.Flat] using flat)
  split
  · exact h.strings
  · exact number
  · exact hname
  · extract_lets literal
    have hliteral : ∀ v, literal = some v → (Kind.constant v false).isOrdinary [] = true := by
      intro v hv
      unfold literal at hv
      split_ifs at hv <;> cases hv <;> rfl
    clear_value literal
    cases literal with
    | none => exact hname
    | some v => exact Sound.take.next fun _ => .node hstart ⟨hliteral v rfl, good_nil⟩
  · refine .ite (fun _ => h.parenthesized) fun _ => .ite (fun _ => h.bracketed) fun _ =>
      .ite (fun _ => h.braced) fun _ => .ite (fun _ => ?_) fun _ => .fail
    exact Sound.take.next fun _ => .node hstart (by simp)
  · exact .fail

end Obeys

end Reading

end MacroExpand
