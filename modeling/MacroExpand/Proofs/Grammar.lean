import MacroExpand.Proofs.Spelling

/-!
# The grammar makes no texts of its own

Every rule of the grammar is sound: the texts of what it parses are spelled by string tokens, and its calls and
statements begin and end with tokens.
Main statement: `Reading.obeys_rules`.
-/

set_option autoImplicit false

namespace MacroExpand

namespace Reading

open MacroExpand.Frame
open MacroExpand.Parser (bind_inv peek_inv here_inv next_inv next_stop takeIf_inv takeIf_next)

variable {s : Reading} {α β : Type} [Bears α] [Bears β]

/-! ## Calls, attributes and elements -/

instance : Bears Parser.Arguments := ⟨fun a => a.positional ++ a.keywords ++ a.generator⟩

theorem good_arguments {a : Parser.Arguments} :
    s.Good a ↔ s.Good a.positional ∧ s.Good a.keywords ∧ s.Good a.generator := by
  simp only [Good, Bears.trees, List.flatMap_singleton', List.mem_append]
  grind

def EndsAhead (start : Nat ×ₗ Nat) (t : Tree) (c : Cursor) : Prop :=
  t.kind.isName = true → start ≤ t.mark.stop ∧ ∀ u ∈ c.rest, u.kind.isCut = true → t.mark.stop ≤ u.start

namespace Obeys

variable {r : Rules} (h : Obeys r)
include h

theorem argumentsFrom (fuel : Nat) {a : Parser.Arguments} (ha : s.Good a) :
    s.Sound (Parser.argumentsFrom r fuel a) := by
  induction fuel generalizing a with
  | zero => exact .fail
  | succ fuel ih =>
    refine Sound.atOp.next fun _ => .ite (fun _ => .pure ha) fun _ => Sound.here.bind fun start hstart => ?_
    extract_lets more
    have hmore : ∀ a, s.Good a → s.Sound (more a) := fun a ha =>
      Sound.takeOp.next fun _ => .ite (fun _ => ih ha) fun _ => Sound.atOp.next fun _ =>
        Sound.guardThat.next fun _ => .pure ha
    refine Sound.takeOp.next fun _ => .ite (fun _ => ?unpacked) fun _ => Sound.atOp.next fun _ =>
      .ite (fun _ => ?starred) fun _ => (Sound.test (Sound.name.next fun _ => .op)).next fun _ =>
      .ite (fun _ => ?keyword) fun _ => ?positional
    case unpacked =>
      exact (h.one _).bind fun v hv => .bind (.node hstart (by simp_all)) fun k hk =>
        hmore _ (by simp_all [good_arguments])
    case starred =>
      exact (h.starred _).bind fun v hv => Sound.guardThat.next fun _ =>
        hmore _ (by simp_all [good_arguments])
    case keyword =>
      exact Sound.name.next fun id => Sound.op.next fun _ => (h.one _).bind fun v hv =>
        .bind (.node hstart (by simp_all)) fun k hk => hmore _ (by simp_all [good_arguments])
    case positional =>
      refine (h.one _).bind fun v hv => atClause.next fun _ => .ite (fun _ => ?_) fun _ => ?_
      · exact h.clauses.bind fun cs hcs => Sound.atOp.next fun _ => Sound.guardThat.next fun _ =>
          .pure (by simp_all [good_arguments])
      · exact Sound.atOp.next fun _ => Sound.guardThat.next fun _ =>
          hmore _ (by simp_all [good_arguments])

theorem arguments : s.Sound (Parser.arguments r) :=
  fun c => h.argumentsFrom _ (by simp [good_arguments]) c

theorem index :  s.Sound (Parser.index r) := by
  refine Sound.here.bind fun start hstart => Sound.atOp.next fun _ => .ite (fun _ => h.starred _) fun _ => ?_
  refine atWalrus.next fun isWalrus => Sound.atOp.next fun _ => ?_
  extract_lets isEnd next
  have hend : s.Sound isEnd := Sound.peek.next fun _ => .pure good_nothing
  have hnext : ∀ lower, s.Good lower → s.Sound (next lower) := by
    intro lower hlower
    refine Sound.takeOp.next fun _ => .ite (fun _ => hend.next fun _ => ?_) fun _ => ?_
    · extract_lets upperNext
      have hupper : ∀ upper, s.Good upper → s.Sound (upperNext upper) := by
        intro upper hupper
        refine Sound.takeOp.next fun _ => ?_
        extract_lets stepNext
        have hstep : ∀ step, s.Good step → s.Sound (stepNext step) := fun step hstep =>
          .node hstart (by simpa using ⟨hlower, hupper, hstep⟩)
        exact .ite (fun _ => hend.next fun _ => .ite (fun _ => .bind (.pure good_none) hstep)
          fun _ => (h.one _).optional.bind hstep) fun _ => .bind (.pure good_none) hstep
      exact .ite (fun _ => .bind (.pure good_none) hupper) fun _ => (h.one _).optional.bind hupper
    · split
      · exact .pure (good_some.1 hlower)
      · exact .fail
  exact .ite (fun _ => .bind (.pure good_none) hnext) fun _ => (h.one _).bind fun t ht =>
    .bind (.pure (good_some.2 ht)) hnext

theorem indices : s.Sound (Parser.indices r) := by
  refine Sound.here.bind fun start hstart => h.index.commaList.bind fun found hfound => ?_
  split
  · exact .ite (fun _ => .node hstart (by simp_all)) fun _ => .pure (by simp_all)
  · exact .node hstart (by simp_all)

omit h in
/-- A call whose arguments were read behind a place. -/
theorem built_call {start : Mark} (hstart : s.Good start) (begins : s.Begins start) {t : Tree}
    (ht : s.Good t) {place : Nat ×ₗ Nat} (inside : s.lo ≤ place)
    (ends : t.kind.isName = true → start.start ≤ t.mark.stop ∧ t.mark.stop ≤ place) {positional keywords : List Tree}
    (arguments : (s.behind place).Good [positional, keywords]) {c : Cursor} (edge : s.Edge c.endLine c.endColumn)
    (stops : s.Stops c.stop) (behind : place ≤ c.stop) :
    s.Built (.node { start with endLine := c.endLine, endColumn := c.endColumn } .call [[t], positional, keywords]) := by
  have built : ∀ slot ∈ [[t], positional, keywords], ∀ u ∈ slot, s.Built u :=
    good_slots.mp (good_cons.2 ⟨by simpa using ht, arguments.mono inside⟩)
  obtain ⟨unlabelled, begun⟩ := good_mark.1 hstart
  refine .node { unlabelled, shaped := rfl, oneLine := rfl, spans := fun _ => ⟨unlabelled, begun, edge⟩, spelled := nofun,
                 decorators := List.forall_mem_nil _, call := fun _ => ?_, removable := nofun } built
  refine { inside := begins.inside, begins := begins.starts, ends := stops, callee := fun name isCallee isName => ?_ }
  obtain rfl := List.mem_singleton.mp isCallee
  refine ⟨(ends isName).1, (ends isName).2.trans behind, fun slot isSlot u inSlot => ?_⟩
  exact (good_slots.mp arguments slot isSlot u inSlot).callsFrom.mono (ends isName).2

theorem call {start : Mark} (hstart : s.Good start) (begins : s.Begins start) {t : Tree}
    (ht : s.Good t) {f : Tree → Parser Tree} (hf : ∀ t, s.Good t → t.kind.isName = false → s.Sound (f t))
    {c c' : Cursor} {paren : Token} {tree : Tree} {later : List Token} (left : s.Left c)
    (ends : EndsAhead start.start t c) (heq : c.rest = paren :: later) (isSolid : paren.kind.isSolid = true)
    (run : (do
      let opening ← Parser.here
      let _ ← Parser.next
      let a ← Parser.arguments r
      let _ ← Parser.op ")"
      let positional ← if a.generator.isEmpty then pure a.positional else do
        let g ← Parser.node opening .generatorExp [a.positional, a.generator]
        pure [g]
      let t ← Parser.node start .call [[t], positional, a.keywords]
      f t) { version := s.version } c = some (tree, c')) : s.Left c' ∧ s.Good tree := by
  obtain ⟨opening, c₁, begun, run₁⟩ := bind_inv run
  obtain ⟨left₁, hopening⟩ := Sound.here c c₁ opening left begun
  obtain ⟨first, following, same, rfl, rfl⟩ := here_inv begun
  obtain ⟨bracket, c₂, taken, run₂⟩ := bind_inv run₁
  obtain ⟨rfl, -⟩ := List.cons.inj (heq.symm.trans (next_inv taken))
  obtain ⟨left₂, inFront⟩ := left₁.next taken
  obtain ⟨a, c₃, found, run₃⟩ := bind_inv run₂
  obtain ⟨left₃, ha⟩ := h.arguments c₂ c₃ a left₂.behind found
  rw [good_arguments] at ha
  obtain ⟨close, c₄, closed, run₄⟩ := bind_inv run₃
  obtain ⟨left₄, -⟩ := Sound.op c₃ c₄ close left₃ closed
  -- The call ends behind its closing bracket.
  have stops : s.Stops c₄.stop := by
    obtain ⟨took, isClose⟩ := takeIf_next closed
    have isInked := TokenKind.isInked_of_isSolid (Parser.isSolid_of_isOp isClose)
    have stop := next_stop took
    rw [if_pos isInked] at stop
    exact ⟨_, _, left.cuts, close, left₃.rest.subset (by simp [next_inv took]), isInked, congrArg toLex stop.symm⟩
  have node : ∀ positional, (s.behind c₂.stop).Good positional →
      (Parser.node start .call [[t], positional, a.keywords] >>= f) { version := s.version } c₄ = some (tree, c') →
      s.Left c' ∧ s.Good tree := by
    intro positional hpositional run₅
    obtain ⟨made, c₅, making, run₆⟩ := bind_inv run₅
    cases making
    have isInked := TokenKind.isInked_of_isSolid isSolid
    refine hf _ (good_tree.2 ?_) rfl c₄ c' tree (left₄.of_behind left₂.inside) run₆
    exact built_call hstart begins ht left₂.inside (fun isName => ⟨(ends isName).1,
      ((ends isName).2 paren (by simp [heq]) (TokenKind.isCut_of_isInked isInked)).trans (inFront isInked)⟩)
      (by simp [hpositional, ha.2.1]) left₄.edge stops left₄.inside
  dsimp only at run₄
  split at run₄
  case isTrue => exact node _ ha.1 run₄
  case isFalse =>
    obtain ⟨g, c₅, made, run₅⟩ := bind_inv run₄
    have hgenerator : (s.behind c₂.stop).Good [a.positional, a.generator] := by simp [ha.1, ha.2.2]
    have opens := good_mark.1 hopening
    have isOpening : (s.behind c₂.stop).Good ({ line := first.line, column := first.column } : Mark) :=
      good_mark.2 opens
    have hg := (Sound.node isOpening ⟨rfl, hgenerator⟩ c₄ c₅ g left₄ made).2
    cases made
    exact node _ (by simpa using hg) run₅

/-- Behind an expression, and behind a name that ends in front of the tokens that are left. -/
theorem trailers {start : Mark} (hstart : s.Good start) (begins : s.Begins start)
    (fuel : Nat) {t : Tree} (ht : s.Good t) {c c' : Cursor} {u : Tree} (left : s.Left c)
    (ends : EndsAhead start.start t c)
    (run : Parser.trailers r start fuel t { version := s.version } c = some (u, c')) : s.Left c' ∧ s.Good u := by
  induction fuel generalizing t c c' u with
  | zero =>
    cases run
    exact ⟨left, ht⟩
  | succ fuel ih =>
    have goOn : ∀ t, s.Good t → t.kind.isName = false → s.Sound (Parser.trailers r start fuel t) :=
      fun t ht noName c c' u left run => ih ht left (fun isName => nomatch noName.symm.trans isName) run
    have node : ∀ {kind slots}, kind.isOrdinary slots = true ∧ s.Good slots → kind.isName = false →
        s.Sound (Parser.node start kind slots >>= fun t => Parser.trailers r start fuel t) :=
      fun h noName => (Sound.node hstart h).bindWith (P := fun t => t.kind.isName = false)
        (fun _ _ _ _ made => by cases made; exact noName) fun t ht noName => goOn t ht noName
    obtain ⟨token, c₁, peeked, step⟩ := bind_inv run
    obtain ⟨later, heq, rfl⟩ := peek_inv peeked
    split at step
    case isTrue =>
      exact (Sound.take.next fun _ => Sound.name.next fun id => node (by simp_all) rfl) c₁ c' u left step
    split at step
    case isTrue isBracket =>
      have isSolid := Parser.isSolid_of_isOp isBracket
      exact h.call hstart begins ht goOn left ends heq isSolid step
    split at step
    case isTrue =>
      exact (Sound.take.next fun _ => h.indices.bind fun i hi => Sound.op.next fun _ => node (by simp_all) rfl)
        c₁ c' u left step
    case isFalse =>
      cases step
      exact ⟨left, ht⟩

theorem primary : s.Sound (Parser.primary r) := by
  intro c c' tree left run
  obtain ⟨start, c₁, begun, run₁⟩ := bind_inv run
  obtain ⟨-, hstart⟩ := Sound.here c c₁ start left begun
  obtain ⟨first, following, heq, rfl, rfl⟩ := here_inv begun
  obtain ⟨t, c₂, found, last⟩ := bind_inv run₁
  obtain ⟨left₂, ht⟩ := h.atom c₁ c₂ t left found
  obtain ⟨head, later, same, isSolid⟩ := h.placed.atom.leads _ _ _ _ found
  obtain ⟨rfl, rfl⟩ := List.cons.inj (heq.symm.trans same)
  refine h.trailers hstart (left.begins heq isSolid _ rfl) _ ht left₂ (fun isName => ?_) last
  obtain ⟨front, u, back, split, onward, isEnd, stop⟩ := (h.placed.atom.stands _ _ c₁ c₂ t rfl found).name isName
  have isCut : ∀ {u : Token}, u.kind.isSolid = true → u.kind.isCut = true :=
    fun isSolid => TokenKind.isCut_of_isInked (TokenKind.isInked_of_isSolid isSolid)
  have ends : u.stop = t.mark.stop := congrArg toLex stop
  have member : u ∈ c₁.rest := by simp [split]
  have startStop : u.start ≤ u.stop := start_le_stop (left.rest.subset member)
  refine ⟨?_, fun v later isLater => ?_⟩
  · rw [heq] at member
    rcases List.mem_cons.mp member with rfl | behind
    · exact ends ▸ startStop
    · have order := left.ordered
      rw [heq] at order
      have order := (List.pairwise_cons.mp order).1 u behind (isCut isSolid) (isCut isEnd)
      have begun : first.start ≤ first.stop := start_le_stop (left.rest.subset (by simp [heq]))
      exact ends ▸ (begun.trans order).trans startStop
  · have order := left.ordered
    rw [split] at order
    have order := List.pairwise_cons.mp (List.pairwise_append.mp order).2.1
    exact ends ▸ order.1 v (onward.subset later) (isCut isEnd) isLater

/-! ## Operators -/

theorem awaitPrimary : s.Sound (Parser.awaitPrimary r) :=
  Sound.here.bind fun _ hstart => Sound.takeWord.next fun _ => .ite
    (fun _ => h.primary.bind fun _ ht => Sound.needs.next fun _ => .node hstart (by simp_all))
    fun _ => h.primary

theorem power : s.Sound (Parser.power r) :=
  Sound.here.bind fun _ hstart => h.awaitPrimary.bind fun left hleft => Sound.takeOp.next fun _ =>
    .ite (fun _ => (h.one _).bind fun right hright => .node hstart (by simp_all)) fun _ => .pure hleft

theorem factor : s.Sound (Parser.factor r) := by
  refine Sound.here.bind fun start hstart => Sound.peek.next fun t => ?_
  extract_lets sign
  clear_value sign
  cases sign with
  | none => exact h.power
  | some o =>
    exact Sound.take.next fun _ => (h.one _).bind fun operand hoperand => .node hstart (by simp_all)

theorem bitOr : s.Sound (Parser.bitOr r) :=
  .leftAssoc _ (.leftAssoc _ (.leftAssoc _ (.leftAssoc _ (.leftAssoc _ (.leftAssoc _ h.factor)))))

omit h in
theorem comparator : s.Sound Parser.comparator := by
  refine Sound.peek.next fun t => ?_
  extract_lets simple
  split
  · exact Sound.take.next fun _ => .pure good_nothing
  · refine Sound.takeWord.next fun _ => .ite (fun _ => Sound.word.next fun _ => .pure good_nothing)
      fun _ => Sound.takeWord.next fun _ => .ite (fun _ => .pure good_nothing) fun _ =>
      Sound.takeWord.next fun _ => .ite (fun _ => ?_) fun _ => .fail
    exact Sound.takeWord.next fun _ => .ite (fun _ => .pure good_nothing) fun _ => .pure good_nothing

theorem comparison : s.Sound (Parser.comparison r) := by
  refine Sound.here.bind fun start hstart => h.bitOr.bind fun first hfirst => ?_
  refine (Sound.many (comparator.next fun o => h.bitOr.bind fun t ht => .pure ?_)).bind
    fun rest hrest => .ite (fun _ => .pure hfirst) fun _ => ?_
  · exact good_pair.2 ⟨good_nothing, ht⟩
  · exact .node hstart (by simpa using ⟨good_tree.1 hfirst, hrest.seconds⟩)

theorem inversion : s.Sound (Parser.inversion r) :=
  Sound.here.bind fun _ hstart => Sound.takeWord.next fun _ =>
    .ite (fun _ => (h.one _).bind fun t ht => .node hstart (by simp_all)) fun _ => h.comparison

omit h in
theorem chained (between : String) (operator : BoolOperator) {operand : Parser Tree}
    (hoperand : s.Sound operand) : s.Sound (Parser.chained between operator operand) :=
  Sound.here.bind fun _ hstart => hoperand.bind fun first hfirst =>
    (Sound.many (Sound.word.next fun _ => hoperand)).bind fun rest hrest =>
      .ite (fun _ => .pure hfirst) fun _ => .node hstart (by simp_all)

theorem disjunction : s.Sound (Parser.disjunction r) := chained _ _ (chained _ _ h.inversion)

theorem expression : s.Sound (Parser.expression r) := by
  refine Sound.atWord.next fun _ => .ite (fun _ => h.lambdaExpr) fun _ => Sound.here.bind fun start hstart =>
    h.disjunction.bind fun body hbody => ?_
  refine (Sound.optional (Sound.word.next fun _ => h.disjunction.bind fun test htest =>
    Sound.word.next fun _ => (h.one _).bind fun other hother =>
      .pure (good_pair.2 ⟨htest, hother⟩))).bind fun choice hchoice => ?_
  split
  · exact .node hstart (by simp_all)
  · exact .pure hbody


/-! ## Patterns -/

omit h in
theorem signedNumber : s.Sound Parser.signedNumber :=
  Sound.here.bind fun _ hstart => Sound.takeOp.next fun _ =>
    .ite (fun _ => number.bind fun n hn => .node hstart (by simp_all)) fun _ => number

omit h in
theorem atImaginary : s.Sound Parser.atImaginary := Sound.peek.next fun _ => .pure good_nothing

omit h in
theorem numberPattern : s.Sound Parser.numberPattern := by
  refine Sound.here.bind fun start hstart => ?_
  refine (Sound.ahead (Sound.takeOp.next fun _ => atImaginary.next fun _ => .pure good_nothing)).next
    fun isReal => signedNumber.bind fun left hleft => Sound.peek.next fun t => ?_
  extract_lets o
  clear_value o
  cases o with
  | none => exact .pure hleft
  | some o =>
    exact Sound.take.next fun _ => atImaginary.next fun _ => Sound.guardThat.next fun _ =>
      number.bind fun right hright => .node hstart (by simp_all)

omit h in
theorem dottedFrom {start : Mark} (hstart : s.Good start) (fuel : Nat) {t : Tree} (ht : s.Good t) :
    s.Sound (Parser.dottedFrom start fuel t) := by
  induction fuel generalizing t with
  | zero => exact .pure ht
  | succ fuel ih =>
    exact Sound.takeOp.next fun _ => .ite (fun _ => Sound.name.next fun id =>
      .bind (.node hstart (by simp_all)) fun t ht => ih ht) fun _ => .pure ht

omit h in
theorem captureName : s.Sound Parser.captureName :=
  Sound.name.next fun _ => Sound.guardThat.next fun _ => .pure good_nothing

theorem literalOrValue : s.Sound (Parser.literalOrValue r) := by
  refine Sound.here.bind fun start hstart => Sound.peek.next fun t => ?_
  split
  · exact h.strings
  · exact numberPattern
  · exact numberPattern
  · exact .ite (fun _ => h.atom) fun _ => Sound.nameThen fun id flat => .bind (.node hstart (by simpa [Text.Flat] using flat))
      fun base hbase => Sound.atOp.next fun _ => Sound.guardThat.next fun _ c =>
        dottedFrom hstart (c.rest.length + 1) hbase c

theorem maybeStarPattern : s.Sound (Parser.maybeStarPattern r) :=
  Sound.here.bind fun _ hstart => Sound.takeOp.next fun _ =>
    .ite (fun _ => Sound.name.next fun _ => .node hstart (by simp)) fun _ => h.one _

theorem parenthesizedPattern : s.Sound (Parser.parenthesizedPattern r) := by
  refine Sound.here.bind fun start hstart => Sound.op.next fun _ => Sound.takeOp.next fun _ =>
    .ite (fun _ => .node hstart (by simp)) fun _ => h.maybeStarPattern.commaList.bind fun ⟨ps, comma⟩ hps =>
    Sound.op.next fun _ => ?_
  split
  · split
    · exact .fail
    · exact .pure (by simp_all)
  · exact .node hstart (by simp_all)

theorem mappingEntry : s.Sound (Parser.mappingEntry r) :=
  h.literalOrValue.bind fun _ hk => Sound.op.next fun _ => (h.one _).bind fun _ hp =>
    .pure (good_pair.2 ⟨hk, hp⟩)

theorem mappingPattern : s.Sound (Parser.mappingPattern r) := by
  refine Sound.here.bind fun start hstart => Sound.op.next fun _ =>
    h.mappingEntry.commas.optional.bind fun found hfound => ?_
  extract_lets entries restNext commaNext
  have hentries : s.Good entries := by
    cases found with
    | none => exact good_nil
    | some found => exact good_some.1 hfound
  have hrest : ∀ rest, s.Sound (restNext rest) := fun rest => Sound.op.next fun _ =>
    .node hstart ⟨rfl, good_cons.2 ⟨hentries.firsts, good_cons.2 ⟨hentries.seconds, good_nil⟩⟩⟩
  have hcomma : ∀ comma, s.Sound (commaNext comma) := by
    intro comma
    refine Sound.atOp.next fun _ => .ite (fun _ => ?_) fun _ => Sound.next (.pure good_none) hrest
    exact Sound.guardThat.next fun _ => Sound.take.next fun _ => captureName.next fun id =>
      Sound.takeOp.next fun _ => Sound.next (.pure (good_some.2 good_nothing)) hrest
  exact .ite (fun _ => Sound.next (.pure good_nothing) hcomma) fun _ => Sound.takeOp.next hcomma

theorem classArgument : s.Sound (Parser.classArgument r) := by
  refine (Sound.test (Sound.name.next fun _ => .op)).next fun isKeyword => .ite (fun _ => ?_) fun _ => ?_
  · exact Sound.name.next fun id => Sound.op.next fun _ => (h.one _).bind fun p hp =>
      .pure (good_pair.2 ⟨good_some.2 good_nothing, hp⟩)
  · exact (h.one _).bind fun p hp => .pure (good_pair.2 ⟨good_none, hp⟩)

theorem namePattern : s.Sound (Parser.namePattern r) := by
  refine Sound.here.bind fun start hstart => Sound.nameThen fun id flat => .bind (.node hstart (by simpa [Text.Flat] using flat))
    fun base hbase => .ite (fun _ => ?_) fun _ => ?_
  · exact .node hstart (by simp)
  · refine Sound.bind (fun c => dottedFrom hstart (c.rest.length + 1) hbase c) fun dotted hdotted =>
      Sound.atOp.next fun _ => .ite (fun _ => Sound.take.next fun _ => ?_) fun _ => ?_
    · refine h.classArgument.commaList.optional.bind fun found hfound => ?_
      extract_lets arguments positional keyword
      have harguments : s.Good arguments := rest_items hfound
      have hpositional : s.Good positional := harguments.sublist (List.takeWhile_sublist _)
      have hkeyword : s.Good keyword := harguments.sublist (List.dropWhile_sublist _)
      exact Sound.op.next fun _ => Sound.guardThat.next fun _ => .node hstart
        (by simpa using ⟨good_tree.1 hdotted, hpositional.seconds, hkeyword.seconds⟩)
    · split
      · exact .node hstart (by simp)
      · exact .node hstart (by simp_all)

theorem closedPattern : s.Sound (Parser.closedPattern r) := by
  refine Sound.here.bind fun start hstart => Sound.peek.next fun t => ?_
  have hliteral : s.Sound (Parser.literalOrValue r >>= fun v => Parser.node start .matchValue [[v]]) :=
    h.literalOrValue.bind fun v hv => .node hstart (by simp_all)
  split
  · exact hliteral
  · exact hliteral
  · exact h.namePattern
  · extract_lets singleton
    clear_value singleton
    cases singleton with
    | none => exact h.namePattern
    | some v => exact Sound.take.next fun _ => .node hstart (by simp)
  · refine .ite (fun _ => numberPattern.bind fun v hv => .node hstart (by simp_all)) fun _ =>
      .ite (fun _ => h.parenthesizedPattern) fun _ => .ite (fun _ => Sound.take.next fun _ => ?_)
      fun _ => .ite (fun _ => h.mappingPattern) fun _ => .fail
    exact h.maybeStarPattern.commaList.optional.bind fun ps hps => Sound.op.next fun _ =>
      .node hstart (by simpa using rest_items hps)
  · exact .fail

theorem pattern : s.Sound (Parser.pattern r) := by
  refine Sound.here.bind fun start hstart => (h.one _).bind fun first hfirst =>
    (Sound.many (Sound.op.next fun _ => h.one .closedPattern)).bind fun rest hrest => ?_
  extract_lets next
  have hnext : ∀ t, s.Good t → s.Sound (next t) := fun t ht => Sound.takeWord.next fun _ =>
    .ite (fun _ => captureName.next fun _ => .node hstart (by simp_all)) fun _ => .pure ht
  exact .ite (fun _ => .bind (.pure hfirst) hnext) fun _ => .bind (.node hstart (by simp_all)) hnext

theorem casePattern : s.Sound (Parser.casePattern r) := by
  refine Sound.here.bind fun start hstart => h.maybeStarPattern.commaList.bind fun found hfound => ?_
  split
  · split
    · exact .fail
    · exact .pure (by simp_all)
  · exact .node hstart (by simp_all)

/-! ## Parts of statements -/

theorem rightSide : s.Sound (Parser.rightSide r) :=
  Sound.atWord.next fun _ => .ite (fun _ => h.yieldExpr) fun _ => h.one _

theorem rightSide_leads : (Parser.rightSide r).Leads :=
  .still (.atWord _) fun _ => .ite Parser.PlacedRules.yieldExpr.leads h.placed.starExpressions

theorem assignmentFrom (fuel : Nat) {targets : List Tree} {value : Tree} (htargets : s.Good targets)
    (hvalue : s.Good value) : s.Sound (Parser.assignmentFrom r fuel targets value) := by
  induction fuel generalizing targets value with
  | zero => exact .fail
  | succ fuel ih =>
    refine Sound.takeOp.next fun _ => .ite (fun _ => ?_) fun _ => .pure (by simp_all)
    split
    · exact .fail
    · rename_i t ht
      have htarget := built_target? (good_tree.1 hvalue) ht
      exact h.rightSide.bind fun v hv => ih (by simp_all) hv

omit h in
theorem typeCommentHere : s.Sound Parser.typeCommentHere :=
  Sound.kind.optional.next fun found => .pure (by cases found <;> simp)

omit h in
theorem dottedName : s.Sound Parser.dottedName :=
  Sound.name.next fun _ => (Sound.many (Sound.op.next fun _ => .name)).next fun _ => .pure good_nothing

omit h in
theorem asName : s.Sound Parser.asName :=
  Sound.takeWord.next fun _ => .ite (fun _ => Sound.name.next fun _ => .pure (by simp))
    fun _ => .pure good_none

omit h in
theorem dots : s.Sound Parser.dots := (Sound.many .takeIf).next fun _ => .pure good_nothing

theorem withItem : s.Sound (Parser.withItem r) :=
  (h.one _).bind fun _ hcontext => (Sound.optional (Sound.word.next fun _ => h.starTarget.bind
    fun _ ht => Sound.peek.next fun _ => Sound.guardThat.next fun _ => .pure ht)).bind
    fun _ htarget => .pure (good_tree.2 (built_unplaced (by simp_all)))

omit h in
theorem functionComment : s.Sound Parser.functionComment := by
  refine Sound.kind.optional.next fun found => ?_
  split
  · exact .pure (by simp)
  · exact .optional (Sound.kind.next fun _ => Sound.kind.next fun _ =>
      (Sound.ahead (Sound.kind.next fun _ => .kind)).next fun _ => .pure good_text)

theorem decorators : s.Sound (Parser.decorators r) :=
  .many (Sound.op.next fun _ => (h.one _).bind fun _ ht => Sound.kind.next fun _ => .pure ht)

theorem leads_of_decorators {c c' : Cursor} {found : List Tree} (hleft : s.Left c)
    (run : Parser.decorators r { version := s.version } c = some (found, c')) : ∀ d ∈ found, s.Leads d := by
  refine Sound.many_all ?_ (fun c c' d hleft step => ?_) hleft run
  · exact Sound.op.next fun _ => (h.one _).bind fun _ ht => Sound.kind.next fun _ => .pure ht
  · obtain ⟨sign, c₁, hsign, step⟩ := bind_inv step
    obtain ⟨t, c₂, hnamed, step⟩ := bind_inv step
    obtain ⟨feed, c₃, -, last⟩ := bind_inv step
    cases last
    have left₁ := (Sound.op c c₁ sign hleft hsign).1
    obtain ⟨isPlaced, ⟨u, hmember, isSolid, line, column⟩, -⟩ := h.placed.named.stands c₁.rest _ c₁ c₂ d rfl hnamed
    refine ⟨isPlaced, _, _, left₁.cuts, u, left₁.rest.subset hmember, isSolid, ?_⟩
    rw [Token.start, line, column]
    rfl

/-! ## Simple statements -/

omit h in
theorem importStatement : s.Sound Parser.importStatement :=
  Sound.here.bind fun _ hstart => Sound.word.next fun _ =>
    (Sound.commas (Sound.here.bind fun _ hstart => dottedName.next fun _ => asName.next fun _ =>
      .node hstart (by simp))).bind fun _ hnames => .node hstart (by simp_all)

omit h in
theorem fromStatement : s.Sound Parser.fromStatement := by
  refine Sound.here.bind fun start hstart => Sound.word.next fun _ => dots.next fun level =>
    dottedName.optional.next fun module => Sound.guardThat.next fun _ => Sound.word.next fun _ => ?_
  extract_lets item next
  have hitem : s.Sound item := Sound.here.bind fun _ hstart => Sound.name.next fun _ => asName.next fun _ =>
    .node hstart (by simp)
  have hnext : ∀ names, s.Good names → s.Sound (next names) := fun names hnames => .node hstart (by simp_all)
  refine Sound.atOp.next fun _ => Sound.takeOp.next fun _ => .ite (fun _ => ?_) fun _ =>
    .ite (fun _ => ?_) fun _ => ?_
  · exact Sound.here.bind fun _ hstart => Sound.take.next fun _ => .bind (.node hstart (by simp)) fun t ht =>
      .bind (.pure (by simpa using ht)) hnext
  · exact hitem.commaList.bind fun ⟨ts, _⟩ hts => Sound.op.next fun _ =>
      .bind (.pure (good_pair.1 hts).1) hnext
  · exact hitem.commas.bind fun ts hts => Sound.atOp.next fun _ => Sound.guardThat.next fun _ =>
      .bind (.pure hts) hnext

theorem returnStatement : s.Sound (Parser.returnStatement r) :=
  Sound.here.bind fun _ hstart => Sound.word.next fun _ => (h.one _).optional.bind fun _ hvalue =>
    .node hstart (by simp_all)

theorem raiseStatement : s.Sound (Parser.raiseStatement r) := by
  refine Sound.here.bind fun start hstart => Sound.word.next fun _ => (h.one _).optional.bind
    fun found hfound => ?_
  split
  · exact .node hstart (by simp)
  · exact Sound.takeWord.next fun _ => .ite (fun _ => (h.one _).bind fun cause hcause =>
      .node hstart (by simp_all)) fun _ => .node hstart (by simp_all)

theorem deleteStatement : s.Sound (Parser.deleteStatement r) := by
  refine Sound.here.bind fun start hstart => Sound.word.next fun _ => Sound.bind (.commaList ?_)
    fun _ hfound => Sound.peek.next fun _ => Sound.guardThat.next fun _ =>
      .node hstart (by simp [(good_pair.1 hfound).1])
  refine (h.one _).bind fun t ht => ?_
  split
  · exact .pure (good_tree.2 (built_target? (good_tree.1 ht) ‹_›))
  · exact .fail

theorem assertStatement : s.Sound (Parser.assertStatement r) := by
  refine Sound.here.bind fun start hstart => Sound.word.next fun _ => (h.one _).bind fun test htest =>
    Sound.takeOp.next fun _ => ?_
  extract_lets next
  have hnext : ∀ message, s.Good message → s.Sound (next message) := fun message hmessage =>
    .node hstart (by simp_all)
  exact .ite (fun _ => (h.one _).bind fun m hm => .bind (.pure (by simpa using hm)) hnext)
    fun _ => .bind (.pure good_nil) hnext

omit h in
theorem namesStatement (text : String) {make : List String → Kind}
    (hmake : ∀ names, (make names).isOrdinary [] = true) : s.Sound (Parser.namesStatement text make) :=
  Sound.here.bind fun _ hstart => Sound.word.next fun _ => Sound.name.commas.next fun names =>
    .node hstart ⟨hmake names, good_nil⟩

omit h in
theorem wordStatement (text : String) {kind : Kind} (hkind : kind.isOrdinary [] = true) :
    s.Sound (Parser.wordStatement text kind) :=
  Sound.here.bind fun _ hstart => Sound.word.next fun _ => .node hstart ⟨hkind, good_nil⟩

section Statements

variable (w : s.Whole)
include w

theorem blocks : s.Sound (r .block) := h.sound s .block fun _ => w

theorem statements : s.Sound (r .statement) := h.sound s .statement fun _ => w

theorem expressionStatement : s.Sound (Parser.expressionStatement r) := by
  refine .atHead (fun _ => .still (.atOp _) fun _ => h.rightSide_leads.bind) fun start hstart begins =>
    Sound.atOp.next fun isBracketed => h.rightSide.bind fun first hfirst => Sound.peek.next fun t =>
    .ite (fun _ => ?assign) fun _ => .ite (fun _ => ?annotated) fun _ => ?other
  case assign =>
    exact .bind (fun c => h.assignmentFrom (c.rest.length + 1) good_nil hfirst c)
      fun ⟨targets, value⟩ hfound => typeCommentHere.next fun comment => .binding w hstart begins (by simp_all)
  case annotated =>
    split
    · exact .fail
    · rename_i target htarget
      have htarget := built_target? (good_tree.1 hfirst) htarget
      refine Sound.take.next fun _ => (h.one _).bind fun typed htyped => Sound.takeOp.next fun _ => ?_
      extract_lets simple next
      have hnext : ∀ value, s.Good value → s.Sound (next value) := fun value hvalue =>
        Sound.needs.next fun _ => .binding w hstart begins (by simp_all)
      exact .ite (fun _ => h.rightSide.bind fun v hv => .bind (.pure (by simpa using hv)) hnext)
        fun _ => .bind (.pure good_nil) hnext
  case other =>
    extract_lets o
    clear_value o
    cases o with
    | none => exact .node hstart (by simp_all)
    | some o =>
      refine .ite (fun _ => ?_) fun _ => .fail
      split
      · exact .fail
      · rename_i target htarget
        have htarget := built_target? (good_tree.1 hfirst) htarget
        have hvalue : s.Sound (Parser.rightSide r >>= fun value =>
            Parser.node start (.augAssign o) [[target], [value]]) :=
          h.rightSide.bind fun value hvalue => .node hstart (by simp_all)
        exact Sound.take.next fun _ => .ite (fun _ => Sound.needs.next fun _ => hvalue) fun _ => hvalue

theorem simpleStatement : s.Sound (Parser.simpleStatement r) :=
  Sound.peek.next fun _ => .ite (fun _ => h.returnStatement) fun _ => .ite (fun _ => importStatement)
    fun _ => .ite (fun _ => fromStatement) fun _ => .ite (fun _ => h.raiseStatement)
    fun _ => .ite (fun _ => wordStatement _ rfl) fun _ => .ite (fun _ => wordStatement _ rfl)
    fun _ => .ite (fun _ => wordStatement _ rfl) fun _ => .ite (fun _ => h.deleteStatement)
    fun _ => .ite (fun _ => h.assertStatement)
    fun _ => .ite (fun _ => namesStatement _ fun _ => rfl)
    fun _ => .ite (fun _ => namesStatement _ fun _ => rfl) fun _ => h.expressionStatement w

theorem simpleStatements : s.Sound (Parser.simpleStatements r) :=
  (h.simpleStatement w).bind fun _ hfirst => (Sound.many (Sound.op.next fun _ => h.simpleStatement w)).bind
    fun _ hrest => Sound.takeOp.next fun _ => Sound.kind.next fun _ =>
    .pure (good_cons.2 ⟨hfirst, hrest⟩)

/-! ## Compound statements -/

theorem block : s.Sound (Parser.block r) := by
  refine Sound.peek.next fun t => .ite (fun _ => Sound.take.next fun _ => Sound.peek.next fun _ =>
    .ite (fun _ => ?_) fun _ => .fail) fun _ => h.simpleStatements w
  exact Sound.take.next fun _ => (Sound.many (h.statements w)).bind fun statements hstatements =>
    Sound.kind.next fun _ => .pure (good_flatten.2 hstatements)

theorem colonBlock : s.Sound (Parser.colonBlock r) := Sound.op.next fun _ => h.blocks w

theorem elseBlock : s.Sound (Parser.elseBlock r) :=
  Sound.takeWord.next fun _ => .ite (fun _ => h.colonBlock w) fun _ => .pure good_nil

theorem ifRest (fuel : Nat) {start : Mark} (hstart : s.Good start) :
    s.Sound (Parser.ifRest r fuel start) := by
  induction fuel generalizing start with
  | zero => exact .fail
  | succ fuel ih =>
    refine (h.one _).bind fun test htest => (h.colonBlock w).bind fun body hbody =>
      Sound.atWord.next fun _ => .ite (fun _ => ?_) fun _ => ?_
    · exact Sound.here.bind fun inner hinner => Sound.take.next fun _ => (ih hinner).bind fun other hother =>
        .node hstart (by simp_all)
    · exact (h.elseBlock w).bind fun other hother => .node hstart (by simp_all)

theorem ifStatement : s.Sound (Parser.ifStatement r) :=
  Sound.here.bind fun _ hstart => Sound.word.next fun _ c => h.ifRest w (c.rest.length + 1) hstart c

theorem whileStatement : s.Sound (Parser.whileStatement r) :=
  Sound.here.bind fun _ hstart => Sound.word.next fun _ => (h.one _).bind fun _ htest =>
    (h.colonBlock w).bind fun _ hbody => (h.elseBlock w).bind fun _ hother => .node hstart (by simp_all)

theorem forStatement {start : Mark} (hstart : s.Good start) (isAsync : Bool) :
    s.Sound (Parser.forStatement r start isAsync) :=
  Sound.word.next fun _ => h.starTargets.bind fun _ htarget => Sound.word.next fun _ =>
    (h.one _).bind fun _ hiterable => Sound.op.next fun _ => typeCommentHere.next fun _ =>
    (h.blocks w).bind fun _ hbody => (h.elseBlock w).bind fun _ hother => .node hstart (by simp_all)

theorem withStatement {start : Mark} (hstart : s.Good start) (isAsync : Bool) :
    s.Sound (Parser.withStatement r start isAsync) := by
  refine Sound.word.next fun _ => ?_
  refine (Sound.optional (Sound.op.next fun _ => h.withItem.commaList.bind fun ⟨items, _⟩ hitems =>
    Sound.op.next fun _ => Sound.op.next fun _ => Sound.peek.next fun _ => Sound.guardThat.next
    fun _ => .pure (good_pair.1 hitems).1)).bind fun bracketed hbracketed => ?_
  split
  · exact (h.blocks w).bind fun body hbody => Sound.needs.next fun _ => .node hstart (by simp_all)
  · exact h.withItem.commas.bind fun items hitems => Sound.op.next fun _ =>
      typeCommentHere.next fun _ => (h.blocks w).bind fun body hbody => .node hstart (by simp_all)

theorem handler (star : Bool) : s.Sound (Parser.handler r star) := by
  refine Sound.here.bind fun start hstart => Sound.word.next fun _ => ?_
  extract_lets typeNext starNext
  have htype : ∀ type, s.Good type → s.Sound (typeNext type) := by
    intro type htype
    have hnode : ∀ id, s.Sound (Parser.colonBlock r >>= fun body =>
        Parser.node start (.exceptHandler id) [type.toList, body]) := fun id =>
      (h.colonBlock w).bind fun body hbody => .node hstart (by simp_all)
    exact .ite (fun _ => asName.next hnode) fun _ => Sound.next (.pure good_none) hnode
  have hstar : ∀ u, s.Sound (starNext u) := by
    intro u
    refine Sound.atOp.next fun _ => ?_
    exact .ite (fun _ => Sound.guardThat.next fun _ => .bind (.pure good_none) htype)
      fun _ => (h.one _).bind fun t ht => .bind (.pure (good_some.2 ht)) htype
  exact .ite (fun _ => Sound.op.next fun _ => hstar ()) fun _ => hstar ()

theorem tryStatement : s.Sound (Parser.tryStatement r) := by
  refine Sound.here.bind fun start hstart => Sound.word.next fun _ => (h.colonBlock w).bind fun body hbody =>
    (Sound.test (Sound.word.next fun _ => .op)).next fun star => (h.handler w star).many.bind
    fun handlers hhandlers => ?_
  extract_lets otherNext
  have hother : ∀ other, s.Good other → s.Sound (otherNext other) := by
    intro other hother
    refine Sound.takeWord.next fun _ => ?_
    extract_lets finalNext
    have hfinal : ∀ final, s.Good final → s.Sound (finalNext final) := by
      intro final hfinal
      have hnode : s.Sound (Parser.node start (.tryStmt star) [body, handlers, other, final]) :=
        .node hstart (by simp_all)
      exact Sound.guardThat.next fun _ => .ite (fun _ => Sound.needs.next fun _ => hnode)
        fun _ => hnode
    exact .ite (fun _ => (h.colonBlock w).bind hfinal) fun _ => .bind (.pure good_nil) hfinal
  exact .ite (fun _ => .bind (.pure good_nil) hother) fun _ => (h.elseBlock w).bind hother

theorem functionStatement {decorators : List Tree} (hdecorators : s.Good decorators)
    (hleads : ∀ d ∈ decorators, s.Leads d) {start : Mark} (hstart : s.Good start) (begins : s.Begins start)
    (isAsync : Bool) :
    s.Sound (Parser.functionStatement r decorators start isAsync) := by
  refine Sound.word.next fun _ => Sound.nameThen fun id flat => Sound.op.next fun _ =>
    (h.parameters _ _).bind fun ps hps => Sound.op.next fun _ => Sound.takeOp.next fun _ => ?_
  extract_lets next
  have hnext : ∀ result, s.Good result → s.Sound (next result) := fun result hresult =>
    Sound.op.next fun _ => functionComment.next fun comment => (h.blocks w).bind fun body hbody =>
      .removable w hstart begins (by simp_all) (by simpa [Text.Flat] using flat) fun _ => hleads
  exact .ite (fun _ => (h.one _).bind fun t ht => .bind (.pure (by simpa using ht)) hnext)
    fun _ => .bind (.pure good_nil) hnext

theorem classStatement {decorators : List Tree} (hdecorators : s.Good decorators) :
    s.Sound (Parser.classStatement r decorators) := by
  refine Sound.here.bind fun start hstart => Sound.word.next fun _ => Sound.name.next fun id =>
    Sound.takeOp.next fun _ => ?_
  extract_lets next
  have hnext : ∀ bases, s.Good bases → s.Sound (next bases) := by
    intro bases hbases
    rw [good_arguments] at hbases
    exact (h.colonBlock w).bind fun body hbody => .node hstart (by simp_all)
  exact .ite (fun _ => h.arguments.bind fun a ha => Sound.guardThat.next fun _ => Sound.op.next
    fun _ => .bind (.pure ha) hnext) fun _ => .bind (.pure (by simp [good_arguments])) hnext

theorem matchCase : s.Sound (Parser.matchCase r) := by
  refine Sound.word.next fun _ => h.casePattern.bind fun p hp => Sound.takeWord.next fun _ => ?_
  extract_lets next
  have hnext : ∀ condition, s.Good condition → s.Sound (next condition) :=
    fun condition hcondition => (h.colonBlock w).bind fun body hbody =>
      .pure (good_tree.2 (built_unplaced (by simp_all)))
  exact .ite (fun _ => (h.one _).bind fun t ht => .bind (.pure (by simpa using ht)) hnext)
    fun _ => .bind (.pure good_nil) hnext

theorem matchStatement : s.Sound (Parser.matchStatement r) := by
  refine Sound.here.bind fun start hstart => Sound.word.next fun _ => Sound.here.bind fun inner hinner =>
    h.starNamed.commaList.bind fun found hfound => ?_
  extract_lets next
  have hnext : ∀ subject, s.Good subject → s.Sound (next subject) := fun subject hsubject =>
    Sound.op.next fun _ => Sound.kind.next fun _ => Sound.kind.next fun _ => (h.matchCase w).bind
      fun first hfirst => (h.matchCase w).many.bind fun rest hrest => Sound.kind.next fun _ =>
      Sound.needs.next fun _ => .node hstart (by simp_all)
  split
  · exact Sound.guardThat.next fun _ => .bind (.pure (by simp_all)) hnext
  · exact .bind (.node hinner (by simp_all)) hnext

theorem asyncStatement {decorators : List Tree} (hdecorators : s.Good decorators)
    (hleads : ∀ d ∈ decorators, s.Leads d) : s.Sound (Parser.asyncStatement r decorators) := by
  refine .atHead (fun _ => (Parser.Leads.word _).bind) fun start hstart begins => Sound.word.next fun _ =>
    Sound.atWord.next fun _ => .ite (fun _ => ?_) fun _ => ?_
  · exact (h.functionStatement w hdecorators hleads hstart begins true).bind fun t ht => Sound.needs.next fun _ =>
      .pure ht
  · exact Sound.guardThat.next fun _ => Sound.needs.next fun _ => Sound.atWord.next fun _ =>
      .ite (fun _ => h.forStatement w hstart true) fun _ => h.withStatement w hstart true

omit h w in
theorem decorated_leads (ds : List Tree) (start : Mark) : Parser.Leads (do
    if ← Parser.atWord "def" then Parser.functionStatement r ds start false
    else if ← Parser.atWord "class" then Parser.classStatement r ds
    else
      Parser.guardThat (← Parser.atWord "async")
      Parser.asyncStatement r ds) :=
  .still (.atWord _) fun _ => .ite (Parser.Leads.word _).bind (.still (.atWord _) fun _ =>
    .ite (.here fun _ => (Parser.Leads.word _).bind) (.still (.atWord _) fun _ => .still (.guardThat _) fun _ =>
      .here fun _ => (Parser.Leads.word _).bind))

theorem decorated : s.Sound (Parser.decorated r) := by
  refine h.decorators.bindWith (fun _ _ _ hleft run => h.leads_of_decorators hleft run) fun ds hds hleads => ?_
  refine .atHead (decorated_leads ds) fun _ hstart begins => Sound.atWord.next fun _ =>
    .ite (fun _ => h.functionStatement w hds hleads hstart begins false) fun _ => Sound.atWord.next fun _ =>
    .ite (fun _ => h.classStatement w hds) fun _ => Sound.atWord.next fun _ =>
    Sound.guardThat.next fun _ => h.asyncStatement w hds hleads

omit h w in
theorem single {p : Parser Tree} (hp : s.Sound p) : s.Sound (p >>= fun t => pure [t]) :=
  hp.bind fun _ ht => .pure (by simpa using ht)

theorem statement : s.Sound (Parser.statement r) :=
  .peekHere fun _ _ hstart begins =>
    .ite (fun _ => single (h.decorated w)) fun _ =>
    .ite (fun isDef => single (h.functionStatement w good_nil (List.forall_mem_nil _) hstart
      (begins (Parser.isSolid_of_isWord isDef)) false)) fun _ =>
    .ite (fun _ => single (h.classStatement w good_nil)) fun _ =>
    .ite (fun _ => single (h.asyncStatement w good_nil (List.forall_mem_nil _))) fun _ =>
    .ite (fun _ => single (h.ifStatement w)) fun _ =>
    .ite (fun _ => single (h.forStatement w hstart false)) fun _ =>
    .ite (fun _ => single (h.whileStatement w)) fun _ =>
    .ite (fun _ => single (h.tryStatement w)) fun _ =>
    .ite (fun _ => single (h.withStatement w hstart false)) fun _ =>
    .ite (fun _ => .orElse (single (h.matchStatement w)) (h.simpleStatements w)) fun _ => h.simpleStatements w

end Statements

/-! ## The whole grammar -/

theorem step : Obeys (Parser.step r) where
  placed := h.placed.step
  sound s rule whole := by
    cases rule with
    | expression => exact single h.expression
    | disjunction => exact single h.disjunction
    | inversion => exact single h.inversion
    | bitOr => exact single h.bitOr
    | factor => exact single h.factor
    | primary => exact single h.primary
    | named => exact single h.named
    | starExpressions => exact single h.starExpressions
    | block => exact h.block (whole rfl)
    | statement => exact h.statement (whole rfl)
    | pattern => exact single h.pattern
    | closedPattern => exact single h.closedPattern

theorem file (w : s.Whole) (ignores : List (Nat × Text)) : s.Sound (Parser.file r ignores) :=
  (Sound.many (h.statement w)).bind fun _ hstatements => Sound.kind.next fun _ =>
    .pure (good_tree.2 (built_unplaced (by simp_all)))

theorem soleExpression : s.Sound (Parser.soleExpression r) := by
  refine Sound.here.bind fun start hstart => (h.one _).commaList.bind fun found hfound => ?_
  extract_lets next
  have hnext : ∀ t, s.Good t → s.Sound (next t) := fun t ht =>
    Sound.next (.many .kind) fun _ => Sound.kind.next fun _ => .pure ht
  split
  · exact .bind (.pure (by simp_all)) hnext
  · exact .bind (.node hstart (by simp_all)) hnext

end Obeys

theorem obeys_rules (fuel : Nat) : Obeys (Parser.rules fuel) := by
  induction fuel with
  | zero => exact ⟨Parser.placed_rules 0, fun _ _ _ => .fail⟩
  | succ fuel ih => exact ih.step

end Reading

/-! ## Parsed texts -/

namespace Frame

variable {s : Frame}

theorem Built.of_mem {t n : Tree} (built : s.Built t) (member : n ∈ t.nodes) (noText : n.kind.isText = false) :
    s.Built n := by
  induction t using Tree.inductionOn with
  | node m kind slots ih =>
    rcases Tree.mem_nodes.mp member with rfl | ⟨u, isChild, inside⟩
    · exact built
    · obtain ⟨slot, isSlot, inSlot⟩ := Tree.mem_children.mp isChild
      cases built with
      | node _ below => exact ih slot isSlot u inSlot (below slot isSlot u inSlot) inside
      | joined _ _ below =>
        refine ih slot isSlot u inSlot (below slot isSlot u inSlot fun isText empty => ?_) inside
        -- A text part has nothing below it, so the node would be that text.
        have only : u.nodes = [u] := by simp [Tree.nodes_eq u, Tree.children, empty]
        rw [only, List.mem_singleton] at inside
        rw [inside, isText] at noText
        cases noText

theorem Built.label_of_mem {t n : Tree} (built : s.Built t) (member : n ∈ t.nodes) :
    n.mark.label = 0 := by
  induction t using Tree.inductionOn with
  | node m kind slots ih =>
    rcases Tree.mem_nodes.mp member with rfl | ⟨u, isChild, inside⟩
    · exact built.label_eq
    · obtain ⟨slot, isSlot, inSlot⟩ := Tree.mem_children.mp isChild
      cases built with
      | node _ below => exact ih slot isSlot u inSlot (below slot isSlot u inSlot) inside
      | joined _ parts below =>
        by_cases leaf : u.slots = []
        · have only : u.nodes = [u] := by simp [Tree.nodes_eq u, Tree.children, leaf]
          rw [only, List.mem_singleton] at inside
          exact inside ▸ parts slot isSlot u inSlot
        · exact ih slot isSlot u inSlot (below slot isSlot u inSlot fun _ => leaf) inside

theorem Built.at_node {t n : Tree} (built : s.Built t) (member : n ∈ t.nodes) (noText : n.kind.isText = false)
    (noFormat : n.kind ≠ .joinedStr) : s.NodeAt n.mark n.kind n.slots := by
  cases built.of_mem member noText with
  | node here => exact here
  | joined => exact absurd rfl noFormat

end Frame

/-- What a file is parsed from. -/
def Source.ofFile (text : Text) (version : Nat) : Source := ⟨text.unifyLineEnds.endLine, version⟩

/-- What is known of the tree of a file. -/
def Frame.ofFile (text : Text) (typeComments : Bool) (version : Nat) : Frame :=
  { Source.ofFile text version with typeComments, lo := toLex (1, 0) }

/-- The texts in the tree of a file are spelled in it, and its nodes span tokens of it. -/
theorem built_of_parseModule {text : Text} {typeComments : Bool} {version : Nat} {tree : Tree}
    (parsed : parseModule text typeComments version = .ok tree) :
    ∃ inner, (Frame.ofFile text typeComments version).Built inner ∧ tree = (inner.label 1).1 := by
  obtain ⟨inner, last, run, rfl⟩ := exists_of_parseModule parsed
  let s : Reading := { Frame.ofFile text typeComments version with
    options := { typeComments, version }, body := text.unifyLineEnds.endLine }
  have sound := (Reading.obeys_rules (8 * text.length + 40)).file (s := s) ⟨rfl, rfl⟩
    (Lexer.run { typeComments, version } text.unifyLineEnds.endLine).ignores
  exact ⟨inner, Frame.good_tree.mp (sound _ _ _ (.all .file le_rfl) run).2, rfl⟩

/-- Names and calls in a tree have the parts that they have in any text. -/
def Tree.Shaped (t : Tree) : Prop := ∀ n ∈ t.nodes, n.kind.isShaped n.slots = true

instance (t : Tree) : Decidable t.Shaped := inferInstanceAs (Decidable (∀ n ∈ t.nodes, n.kind.isShaped n.slots = true))

/-- Labelling keeps how many trees stand in the slots. -/
theorem Tree.isShaped_label (t : Tree) (next : Nat) :
    (t.label next).1.kind.isShaped (t.label next).1.slots = t.kind.isShaped t.slots := by
  obtain ⟨m, kind, slots⟩ := t
  have length : ∀ (ts : List Tree) (next : Nat), (labelAll next ts).1.length = ts.length := by
    intro ts
    induction ts with
    | nil => exact fun _ => rfl
    | cons t rest ih => exact fun next => congrArg (· + 1) (ih _)
  rw [Tree.label]
  dsimp only [Tree.kind, Tree.slots]
  unfold Kind.isShaped
  split
  · cases slots <;> rfl
  · cases slots with
    | nil => rfl
    | cons slot rest => exact congrArg (· == 1) (length slot _)
  · rfl

theorem shaped_of_parseModule {text : Text} {typeComments : Bool} {version : Nat} {tree : Tree}
    (parsed : parseModule text typeComments version = .ok tree) : tree.Shaped := by
  obtain ⟨inner, built, rfl⟩ := built_of_parseModule parsed
  intro n member
  obtain ⟨v, inside, k, rfl⟩ := Tree.exists_of_label_node member
  rw [Tree.isShaped_label]
  by_cases isText : v.kind.isText = true
  · obtain ⟨text, marked, isConstant⟩ := Kind.isText_iff.mp isText
    rw [isConstant]
    rfl
  · cases built.of_mem inside (by simpa using isText) with
    | node here => exact here.shaped
    | joined => rfl

/-- No line ends in a name of a tree. -/
theorem oneLine_of_parseModule {text : Text} {typeComments : Bool} {version : Nat} {tree : Tree}
    (parsed : parseModule text typeComments version = .ok tree) : ∀ n ∈ tree.nodes, n.kind.isOneLine = true := by
  obtain ⟨inner, built, rfl⟩ := built_of_parseModule parsed
  intro n member
  obtain ⟨v, inside, k, rfl⟩ := Tree.exists_of_label_node member
  rw [Tree.label_kind]
  refine built.forall_nodes (P := fun n => n.kind.isOneLine = true) (fun t isText => ?_)
    (fun _ _ _ here => here.oneLine) (fun _ _ => rfl) v inside
  obtain ⟨text, marked, isConstant⟩ := Kind.isText_iff.mp isText
  rw [isConstant]
  rfl

theorem unlabelled_of_parseExpression {text : Text} {tree : Tree}
    (parsed : parseExpression text = .ok tree) : ∀ n ∈ tree.nodes, n.mark.label = 0 := by
  unfold parseExpression at parsed
  split at parsed
  · cases parsed
  · dsimp only at parsed
    unfold parseTokens at parsed
    split at parsed
    case h_1 found last run =>
      cases parsed
      let s : Reading := { text := text.unifyLineEnds, version := 11, typeComments := false, lo := toLex (1, 0),
                           options := {}, body := text.unifyLineEnds }
      have sound := (Reading.obeys_rules (8 * text.length + 40)).soleExpression (s := s)
      exact fun n member => (Frame.good_tree.mp (sound _ _ _ (.all .file le_rfl) run).2).label_of_mem member
    case h_2 => cases parsed

theorem module_of_parseModule {text : Text} {typeComments : Bool} {version : Nat} {tree : Tree}
    (parsed : parseModule text typeComments version = .ok tree) : ∃ ignores, tree.kind = .module ignores := by
  obtain ⟨inner, last, run, rfl⟩ := exists_of_parseModule parsed
  obtain ⟨statements, _, -, run⟩ := Parser.bind_inv run
  obtain ⟨_, _, -, run⟩ := Parser.bind_inv run
  cases run
  exact ⟨_, rfl⟩

end MacroExpand
