import MacroExpand.Proofs.Finding
import MacroExpand.Proofs.Grammar
import MacroExpand.ImportHook

/-!
# Texts that do not mention the directive

The import hook passes over a text that does not hold the directive.  What a scan compares with the
directive are texts of the tree, and each of them is spelled by string tokens of the text.  So a
passed-over text has macros only where its literals must be joined, or their escapes undone, before
they read as the directive.
-/

set_option autoImplicit false

namespace MacroExpand

namespace Text

theorem containsText_iff {text part : Text} : text.containsText part = true ↔ part <:+: text := by
  induction text with
  | nil => simp [containsText]
  | cons c rest ih =>
    rw [containsText, Bool.or_eq_true, ih, List.isPrefixOf_iff_prefix, List.infix_cons_iff]

/-- Ending the last line of a text leaves one character behind the text at most. -/
theorem exists_endLine (text : Text) : ∃ front last, text.endLine = front ++ [last] ∧ front <:+: text := by
  unfold endLine
  split
  case isTrue ends =>
    obtain ⟨front, rfl⟩ := List.getLast?_eq_some_iff.mp ends
    exact ⟨front, '\n', rfl, (List.prefix_append front _).isInfix⟩
  case isFalse => exact ⟨text, '\n', rfl, List.infix_rfl⟩

end Text

namespace Source

variable {s : Source}

/-! ## The tree of a file -/

/-- A text that stands in a file right below a node other than a formatted literal is spelled there. -/
theorem spelled_of_parseModule {text found : Text} {typeComments marked : Bool} {version : Nat}
    {tree n u : Tree} (parsed : parseModule text typeComments version = .ok tree)
    (member : n ∈ tree.nodes) (noText : n.kind.isText = false) (noFormat : n.kind ≠ .joinedStr)
    (isChild : u ∈ n.children) (isText : u.kind = .constant (.str found) marked) :
    (ofFile text version).Spelled u.mark found := by
  obtain ⟨inner, built, rfl⟩ := built_of_parseModule parsed
  obtain ⟨v, inside, k, rfl⟩ := Tree.exists_of_label_node member
  obtain ⟨w, isBelow, k', rfl⟩ := Tree.exists_of_label_child isChild
  rw [Tree.label_kind] at noText noFormat isText
  have leaf : (Frame.ofFile text typeComments version).Built w := by
    have whole := built.of_mem inside noText
    obtain ⟨slot, isSlot, inSlot⟩ := List.mem_flatten.mp isBelow
    cases whole with
    | joined => exact absurd rfl noFormat
    | node _ below => exact below slot isSlot w inSlot
  cases leaf with
  | joined => cases isText
  | node here =>
    obtain ⟨run, writes⟩ := here.spelled found marked isText
    exact ⟨run, writes.lexed, writes.spells, writes.place⟩

/-! ## Spelling a text -/

/-- What a string token of the source stands for, but for its escapes, stands in the source. -/
theorem Lexed.body_infix {text : Text} {last : Char} {tokens : List Token} (ends : s.text = text ++ [last])
    (lexed : s.Lexed tokens) {t : Token} (member : t ∈ tokens) (isString : t.kind = .string) :
    (StringLiteral.ofToken t).body <:+: text := by
  induction lexed generalizing t with
  | whole typeComments =>
    have inside := Lexer.run_strings member isString
    rw [ends] at inside
    exact StringLiteral.body_infix (inside.trans (List.suffix_cons '(' _).isInfix)
  | field outer memberOuter isOuter split field ih =>
    have inside := Lexer.run_strings member isString
    exact (StringLiteral.body_infix inside).trans
      ((StringLiteral.split_fields split _ _ _ field).within.trans (ih memberOuter isOuter))

/-- Literals at a place spell a text by being joined, or by an escape in one of them. -/
def SpelledIndirectly (s : Source) (m : Mark) (text : Text) : Prop :=
  ∃ run, s.Writes m text run ∧ (2 ≤ run.length ∨ ∃ t ∈ run,
    (StringLiteral.ofToken t).isRaw = false ∧ '\\' ∈ (StringLiteral.ofToken t).body)

theorem text_of_plain {literal : StringLiteral} {points : List CodePoint} (isText : literal.text = .ok points)
    (plain : literal.isRaw = true ∨ '\\' ∉ literal.body) : points = literal.body.map .char := by
  unfold StringLiteral.text at isText
  split at isText
  case isTrue => cases isText; rfl
  case isFalse notRaw =>
    rw [StringLiteral.unescape_of_not_mem (plain.resolve_left notRaw)] at isText
    cases isText
    rfl

theorem Spelled.infix_or_indirect {m : Mark} {text directive : Text} {last : Char}
    (ends : s.text = text ++ [last]) (nonempty : directive ≠ []) (spelled : s.Spelled m directive) :
    directive <:+: text ∨ s.SpelledIndirectly m directive := by
  obtain ⟨run, writes⟩ := spelled
  obtain ⟨tokens, lexed, inside⟩ := writes.lexed
  obtain ⟨parts, texts, whole⟩ := writes.spells.texts
  match run, inside, writes, texts with
  | [], _, _, texts =>
    cases texts
    exact absurd (List.map_eq_nil_iff.mp whole.symm) nonempty
  | [t], inside, writes, texts =>
    by_cases plain : (StringLiteral.ofToken t).isRaw = true ∨ '\\' ∉ (StringLiteral.ofToken t).body
    · left
      obtain ⟨part, isText, rest⟩ := Sandbox.bind_ok texts
      cases rest
      have alone : directive = (StringLiteral.ofToken t).body := by
        refine List.map_injective_iff.mpr (fun _ _ same => CodePoint.char.inj same) ?_
        rw [← whole, ← text_of_plain isText plain]
        simp
      rw [alone]
      exact lexed.body_infix ends (inside.subset (.head _)) (writes.spells.strings t (.head _))
    · right
      rw [not_or, Bool.not_eq_true, not_not] at plain
      exact ⟨[t], writes, .inr ⟨t, .head _, plain⟩⟩
  | t :: u :: rest, _, writes, _ => exact .inr ⟨_, writes, .inl (by simp)⟩

end Source

/-! ## Scanning -/

namespace Scan

theorem Context.isDirective_iff {c : Context} {t : Tree} :
    c.isDirective t = true ↔ ∃ marked, t.kind = .constant (.str c.directive) marked := by
  unfold isDirective
  constructor
  · intro same
    split at same
    case h_1 found marked isText => exact ⟨marked, by rw [isText, eq_of_beq same]⟩
    case h_2 => cases same
  · rintro ⟨marked, isText⟩
    simp only [isText, beq_self_eq_true]

/-- A function, or a lambda whose body is a tuple, opens with an expression. -/
inductive OpensWith (t u : Tree) : Prop where
  | function {name : String} {isAsync : Bool} {comment : Option Text} {first : Tree}
      (isFunction : t.kind = .functionDef name isAsync comment) (isFirst : (t.slot 1).head? = some first)
      (isStatement : first.kind = .exprStmt) (isValue : u ∈ first.children)
  | lambda {usage : Usage} (isLambda : t.kind = .lambdaExpr) (isTuple : (t.part 1).kind = .tuple usage)
      (isFirst : ((t.part 1).slot 0).head? = some u)

/-- What a node opens with stands right below a statement or a tuple in it. -/
theorem OpensWith.exists_parent {t u : Tree} (opens : OpensWith t u) :
    ∃ n ∈ t.children, (n.kind = .exprStmt ∨ ∃ usage, n.kind = .tuple usage) ∧ u ∈ n.children := by
  cases opens with
  | @function _ _ _ first isFunction isFirst isStatement isValue =>
    exact ⟨first, mem_children_of_slot (List.mem_of_mem_head? isFirst), .inl isStatement, isValue⟩
  | @lambda usage isLambda isTuple isFirst =>
    refine ⟨t.part 1, ?_, .inr ⟨usage, isTuple⟩, mem_children_of_slot (List.mem_of_mem_head? isFirst)⟩
    refine (part_cases t 1).resolve_right fun none => ?_
    rw [none] at isTuple
    cases isTuple

variable {c : Context}

theorem Context.opensWith_of_opens {t : Tree} {name : String} {isAsync : Bool} {comment : Option Text}
    (isFunction : t.kind = .functionDef name isAsync comment) (opens : c.opens (t.slot 1) = true) :
    ∃ u, OpensWith t u ∧ c.isDirective u = true := by
  unfold Context.opens at opens
  split at opens
  case h_2 => cases opens
  case h_1 first rest block =>
    rw [Bool.and_eq_true, decide_eq_true_eq] at opens
    obtain ⟨isStatement, isDirective⟩ := opens
    refine ⟨_, .function isFunction (by rw [block]; rfl) isStatement ?_, isDirective⟩
    refine (part_cases first 0).resolve_right fun none => ?_
    rw [none] at isDirective
    cases isDirective

theorem Context.opensWith_of_opensLambda {t : Tree} (isLambda : t.kind = .lambdaExpr)
    (opens : c.opensLambda t = true) : ∃ u, OpensWith t u ∧ c.isDirective u = true := by
  unfold opensLambda at opens
  dsimp only at opens
  split at opens
  case h_2 => cases opens
  case h_1 usage isTuple =>
    rw [Bool.and_eq_true] at opens
    cases first : ((t.part 1).slot 0).head? with
    | none => simp [first] at opens
    | some u =>
      rw [first] at opens
      exact ⟨u, .lambda isLambda isTuple first, opens.2⟩

/-- Where a scan recognises something, a node opens with the directive. -/
theorem Context.exists_opensWith {parent t : Tree} {candidate : Candidate}
    (found : candidate ∈ c.candidates parent t) :
    ∃ n ∈ t.nodes, ∃ u, OpensWith n u ∧ c.isDirective u = true := by
  obtain ⟨p, n, reached, here⟩ := exists_recognised found
  refine ⟨n, reached.mem_nodes, ?_⟩
  unfold recognise at here
  split at here
  case h_1 isFunction =>
    split at here
    · cases here
    · rename_i opens
      exact opensWith_of_opens isFunction (by simpa using opens)
  case h_2 isLambda =>
    split at here
    · cases here
    · rename_i opens
      exact opensWith_of_opensLambda isLambda (by simpa using opens)
  case h_3 => cases here

/-- A scan that recognises nothing finds nothing and says nothing. -/
theorem scanTree_of_no_candidates {path directive : Text} {lines : List Text} {tree : Tree}
    (none : Context.candidates ⟨path, directive, lines⟩ Tree.absent tree = []) :
    scanTree path directive lines tree = ([], .ok {}) := by
  simp only [scanTree, none, Context.registerAll, List.isEmpty_nil, if_true]

end Scan

/-- A scan of a text that the import hook passes over finds nothing, warns of nothing and does not
fail, unless a function or a lambda opens with literals that spell the directive only when they are
joined or their escapes are undone. -/
theorem scan_of_unmentioned {settings : Settings} {text path : Text} {lines : List Text}
    {typeComments : Bool} {version : Nat} {tree : Tree} (nonempty : settings.directive ≠ [])
    (unmentioned : settings.mentionsDirective text.unifyLineEnds = false)
    (parsed : parseModule text typeComments version = .ok tree) :
    scanTree path settings.directive lines tree = ([], .ok {}) ∨
      ∃ t ∈ tree.nodes, ∃ u, Scan.OpensWith t u ∧
        (∃ marked, u.kind = .constant (.str settings.directive) marked) ∧
        (Source.ofFile text version).SpelledIndirectly u.mark settings.directive := by
  cases found : Scan.Context.candidates ⟨path, settings.directive, lines⟩ Tree.absent tree with
  | nil => exact .inl (Scan.scanTree_of_no_candidates found)
  | cons candidate rest =>
    right
    obtain ⟨t, inside, u, opens, isDirective⟩ :=
      Scan.Context.exists_opensWith (found ▸ List.mem_cons_self : candidate ∈ _)
    obtain ⟨marked, isText⟩ := Scan.Context.isDirective_iff.mp isDirective
    refine ⟨t, inside, u, opens, ⟨marked, isText⟩, ?_⟩
    obtain ⟨n, isChild, place, below⟩ := opens.exists_parent
    have member : n ∈ tree.nodes :=
      Tree.mem_nodes_trans inside (Tree.mem_nodes_of_child isChild (Tree.mem_nodes_self n))
    have spelled : (Source.ofFile text version).Spelled u.mark settings.directive := by
      have plain : n.kind.isText = false ∧ n.kind ≠ .joinedStr := by
        rcases place with isStatement | ⟨usage, isTuple⟩
        · simp [isStatement]
        · simp [isTuple]
      exact Source.spelled_of_parseModule parsed member plain.1 plain.2 below isText
    obtain ⟨front, last, ends, within⟩ := Text.exists_endLine text.unifyLineEnds
    refine (spelled.infix_or_indirect ends nonempty).resolve_left fun stands => ?_
    have mentioned := Text.containsText_iff.mpr (stands.trans within)
    rw [Settings.mentionsDirective, mentioned] at unmentioned
    cases unmentioned

/-- The hook passes over a function that opens with another text. -/
theorem scan_of_other_text :
    let text := chars "def f():\n    'use a macro'\n    return 1\n"
    ({} : Settings).mentionsDirective text.unifyLineEnds = false ∧
      ∃ tree, parseModule text = .ok tree ∧
        (scanTree (chars "m.py") (chars "use macro") text.lines tree = ([], .ok {}) ∨
          ∃ t ∈ tree.nodes, ∃ u, Scan.OpensWith t u ∧
            (∃ marked, u.kind = .constant (.str (chars "use macro")) marked) ∧
            (Source.ofFile text 11).SpelledIndirectly u.mark (chars "use macro")) := by
  intro text
  have unmentioned : ({} : Settings).mentionsDirective text.unifyLineEnds = false := by decide +kernel
  obtain ⟨tree, parsed, -⟩ : ∃ tree, parseModule text = .ok tree ∧ tree.kind ≠ .absent := by
    decide +kernel
  exact ⟨unmentioned, tree, parsed, scan_of_unmentioned (by decide) unmentioned parsed⟩

/-- A macro whose directive is written with an escape. -/
def escapedMacro : Text := chars "def m():\n    'use\\x20macro'\n    return 1\n"

/-- The hook passes over it, and the scan registers it. -/
theorem escapedMacro_registered :
    ({} : Settings).mentionsDirective escapedMacro.unifyLineEnds = false ∧
      ∃ tree, parseModule escapedMacro = .ok tree ∧
        ∃ scan, (scanTree (chars "m.py") (chars "use macro") escapedMacro.lines tree).2 = .ok scan ∧
          scan.definitions.map Definition.name = ["m"] := by
  decide +kernel

end MacroExpand
