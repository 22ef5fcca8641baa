import MacroExpand.Proofs.Erasing
import MacroExpand.Proofs.Spelling

/-!
# Parsed trees have the parts that trees have

A rule of the grammar gives statements or parts of statements, and what it puts into the slots of a node may stand there
(`Tree.Fills`).  So the blocks of a file hold statements, its functions and declarations have all their parts, and
annotations stand where they may (`wellFormed_of_parseModule`, `annotates_of_parseModule`).
-/

set_option autoImplicit false

namespace MacroExpand

/-! ## Trees for slots -/

/-- What most nodes are: neither parameters nor what has some. -/
def Kind.isPlain : Kind → List (List Tree) → Bool
  | .arg .., _ | .arguments, _ | .lambdaExpr, _ | .functionDef .., _ => false
  | .annAssign _, slots => slots.length == 3
  | _, _ => true

theorem Kind.holds_of_part {kind : Kind} (isPart : kind.role = .part) (k : Nat) : kind.holds k = .part :=
  not_not.mp fun block => Kind.role_ne_part block isPart

namespace Tree

variable {m : Mark} {kind : Kind} {slots : List (List Tree)} {t u : Tree} {role : Role}

/-- A node has the parts that it has in any text, and each may stand in its slot. -/
structure Fitting (n : Tree) : Prop where
  roles : ∀ slot ∈ n.slots.zipIdx, ∀ u ∈ slot.1, u.kind.role = n.kind.holds slot.2
  parts : n.kind.hasParts n.slots = true
  seated : n.isSeated = true

def Formed (t : Tree) : Prop := ∀ n ∈ t.nodes, n.Fitting

theorem formed_node : (Tree.node m kind slots).Formed ↔
    (Tree.node m kind slots).Fitting ∧ ∀ slot ∈ slots, ∀ t ∈ slot, t.Formed := forall_nodes

/-- A tree that may stand in any slot for its role but those for parameters. -/
structure Fills (t : Tree) (role : Role) : Prop where
  formed : t.Formed
  role : t.kind.role = role
  tight : t.isLoose = false

abbrev IsPart (t : Tree) : Prop := t.Fills .part

abbrev IsStatement (t : Tree) : Prop := t.Fills .statement

/-- Slots of a node from some number on hold what they are for. -/
def FillsSlots (kind : Kind) : Nat → List (List Tree) → Prop
  | _, [] => True
  | k, slot :: rest => (∀ t ∈ slot, t.Fills (kind.holds k)) ∧ FillsSlots kind (k + 1) rest

theorem FillsSlots.of_mem {k : Nat} (filled : FillsSlots kind k slots) :
    ∀ slot ∈ slots.zipIdx k, ∀ t ∈ slot.1, t.Fills (kind.holds slot.2) := by
  induction slots generalizing k with
  | nil => exact fun _ inside => nomatch inside
  | cons slot rest ih => exact List.forall_mem_cons.mpr ⟨filled.1, ih filled.2⟩

theorem FillsSlots.of_parts (isPart : kind.role = .part) (parts : ∀ slot ∈ slots, ∀ t ∈ slot, t.IsPart) (k : Nat) :
    FillsSlots kind k slots := by
  induction slots generalizing k with
  | nil => exact trivial
  | cons slot rest ih =>
    obtain ⟨first, later⟩ := List.forall_mem_cons.mp parts
    exact ⟨Kind.holds_of_part isPart k ▸ first, ih later (k + 1)⟩

theorem admits_of_isPlain (plain : kind.isPlain slots = true) (k : Nat) (u : Tree) : admits kind k u = !u.isLoose := by
  cases kind <;> first | rfl | cases plain

theorem tight_of_isPlain (plain : kind.isPlain slots = true) : (Tree.node m kind slots).isLoose = false := by
  cases kind <;> first | rfl | cases plain

theorem Fills.node (isRole : kind.role = role) (plain : kind.isPlain slots = true) (filled : FillsSlots kind 0 slots) :
    (Tree.node m kind slots).Fills role := by
  have each := filled.of_mem
  have below : ∀ slot ∈ slots, ∀ t ∈ slot, t.Formed := fun slot isSlot t inSlot => by
    obtain ⟨k, below, rfl⟩ := List.mem_iff_getElem.mp isSlot
    exact (each (slots[k], k) (List.mk_mem_zipIdx_iff_getElem?.mpr (List.getElem?_eq_getElem below)) t inSlot).formed
  have parts : kind.hasParts slots = true := by
    cases kind <;> first | rfl | exact plain | cases plain
  have seated : (Tree.node m kind slots).isSeated = true := by
    have whole : (slots.zipIdx.all fun slot => slot.1.all (admits kind slot.2)) = true := by
      refine List.all_eq_true.mpr fun slot isSlot => List.all_eq_true.mpr fun t inSlot => ?_
      rw [admits_of_isPlain plain, (each slot isSlot t inSlot).tight]
      rfl
    cases kind <;> first | exact whole | cases plain
  exact ⟨formed_node.mpr ⟨⟨fun slot isSlot t inSlot => (each slot isSlot t inSlot).role, parts, seated⟩, below⟩, isRole,
    tight_of_isPlain plain⟩

theorem Fills.part (isPart : kind.role = .part) (plain : kind.isPlain slots = true)
    (parts : ∀ slot ∈ slots, ∀ t ∈ slot, t.IsPart) : (Tree.node m kind slots).IsPart :=
  .node isPart plain (.of_parts isPart parts 0)

theorem Fills.parts (fills : (Tree.node m kind slots).IsPart) (plain : kind.isPlain slots = true) :
    ∀ slot ∈ slots, ∀ t ∈ slot, t.IsPart := by
  intro slot isSlot t inSlot
  obtain ⟨⟨roles, -, seated⟩, below⟩ := formed_node.mp fills.formed
  obtain ⟨k, inside, rfl⟩ := List.mem_iff_getElem.mp isSlot
  have isIndexed : (slots[k], k) ∈ slots.zipIdx :=
    List.mk_mem_zipIdx_iff_getElem?.mpr (List.getElem?_eq_getElem inside)
  refine ⟨below _ isSlot t inSlot, ?_, ?_⟩
  · exact (roles _ isIndexed t inSlot).trans (Kind.holds_of_part fills.role k)
  · rw [isSeated, Bool.and_eq_true] at seated
    have admitted := List.all_eq_true.mp (List.all_eq_true.mp seated.2 _ isIndexed) t inSlot
    rw [Tree.kind, admits_of_isPlain plain] at admitted
    simpa using admitted

theorem isPart_absent : Tree.absent.IsPart := .part rfl rfl (by simp)

/-! ## Parameters -/

/-- A parameter, which has no annotation where none may stand. -/
structure FillsParameter (annotated : Bool) (t : Tree) : Prop where
  formed : t.Formed
  isParameter : t.kind.isParameter = true
  tight : annotated = false → t.isLoose = false

/-- The parameters of a function or of a lambda. -/
structure FillsParameters (annotated : Bool) (t : Tree) : Prop where
  formed : t.Formed
  role : t.kind.role = .part
  signature : ∀ body decorators result, Kind.isSignature [[t], body, decorators, result] = true
  tight : annotated = false → t.isLoose = false

theorem FillsParameter.role_eq {annotated : Bool} (isParameter : t.FillsParameter annotated) : t.kind.role = .part := by
  have kind := isParameter.isParameter
  cases isKind : t.kind <;> rw [isKind] at kind <;> first | rfl | cases kind

theorem FillsParameter.node {annotated : Bool} {id : String} {comment : Option Text} {typed : List Tree}
    (parts : ∀ t ∈ typed, t.IsPart) (untyped : annotated = false → typed = []) :
    (Tree.node m (.arg id comment) [typed]).FillsParameter annotated := by
  refine ⟨formed_node.mpr ⟨⟨?_, rfl, ?_⟩, fun slot isSlot t inSlot => ?_⟩, rfl, fun none => ?_⟩
  · rintro slot isSlot t inSlot
    obtain rfl := List.mem_singleton.mp isSlot
    exact (parts t inSlot).role
  · have tight : (typed.all fun t => !t.isLoose) = true :=
      List.all_eq_true.mpr fun t inSlot => by rw [(parts t inSlot).tight]; rfl
    change (true && ((typed.all fun t => !t.isLoose) && true)) = true
    rw [tight]
    rfl
  · obtain rfl := List.mem_singleton.mp isSlot
    exact (parts t inSlot).formed
  · rw [untyped none]
    rfl

theorem FillsParameter.commented {id : String} {comment comment' : Option Text} {annotated : Bool}
    (isParameter : (Tree.node m (.arg id comment) slots).FillsParameter annotated) :
    (Tree.node m (.arg id comment') slots).FillsParameter annotated := by
  obtain ⟨⟨roles, -, seated⟩, below⟩ := formed_node.mp isParameter.formed
  exact ⟨formed_node.mpr ⟨⟨roles, rfl, seated⟩, below⟩, rfl, isParameter.tight⟩

end Tree

namespace Parser

open MacroExpand.Tree

/-- What is known of the parameters that were read. -/
structure Parameters.Fits (annotated : Bool) (p : Parameters) : Prop where
  positionalOnly : ∀ t ∈ p.positionalOnly, t.FillsParameter annotated
  positional : ∀ t ∈ p.positional, t.FillsParameter annotated
  defaults : ∀ t ∈ p.defaults, t.IsPart
  variadic : ∀ t ∈ p.variadic, t.FillsParameter annotated
  keywordOnly : ∀ t ∈ p.keywordOnly, t.FillsParameter annotated
  keywordDefaults : ∀ t ∈ p.keywordDefaults, t.IsPart
  keywords : ∀ t ∈ p.keywords, t.FillsParameter annotated

theorem Parameters.Fits.tree {annotated : Bool} {p : Parameters} (fits : p.Fits annotated) :
    p.tree.FillsParameters annotated := by
  obtain ⟨positionalOnly, positional, defaults, variadic, keywordOnly, keywordDefaults, keywords⟩ := fits
  have each : ∀ t ∈ p.tree.children, t.FillsParameter annotated ∨ t.IsPart := by
    simp only [Parameters.tree, Tree.children, Tree.slots, List.flatten_cons, List.flatten_nil, List.append_nil,
      List.mem_append]
    grind
  have below : ∀ slot ∈ p.tree.slots, ∀ t ∈ slot, t ∈ p.tree.children :=
    fun slot isSlot t inSlot => mem_children.mpr ⟨slot, isSlot, inSlot⟩
  refine ⟨formed_node.mpr ⟨⟨fun slot isSlot t inSlot => ?_, rfl, ?_⟩, fun slot isSlot t inSlot => ?_⟩, rfl,
    fun _ _ _ => ?_, fun none => ?_⟩
  · rw [Tree.kind, Kind.holds_of_part rfl]
    rcases each t (below _ (List.fst_mem_of_mem_zipIdx isSlot) t inSlot) with isParameter | isPart
    · exact isParameter.role_eq
    · exact isPart.role
  · change (p.tree.slots.zipIdx.all fun slot => slot.1.all (admits .arguments slot.2)) = true
    simp only [Parameters.tree, Tree.slots, List.zipIdx_cons, List.zipIdx_nil, List.all_cons, List.all_nil,
      Bool.and_eq_true, List.all_eq_true, Bool.and_true, admits, Bool.not_eq_true']
    grind [FillsParameter, Fills]
  · rcases each t (below slot isSlot t inSlot) with isParameter | isPart
    · exact isParameter.formed
    · exact isPart.formed
  · change ((p.positionalOnly ++ p.positional ++ p.variadic ++ p.keywordOnly ++ p.keywords).all
      fun t => t.kind.isParameter) = true
    simp only [List.all_append, Bool.and_eq_true, List.all_eq_true]
    grind [FillsParameter]
  · have none : p.tree.children.any isTypedParameter = false := by
      refine List.any_eq_false.mpr fun t inside typed => ?_
      have tight : t.isLoose = false := (each t inside).elim (fun isParameter => isParameter.tight none) Fills.tight
      rw [isLoose, typed] at tight
      cases tight
    exact (Bool.false_or _).trans (by rw [none]; rfl)

/-! ## What steps give -/

variable {α β : Type} {P : α → Prop} {Q : β → Prop}

/-- Whatever a step gives has a property. -/
def Yields (P : α → Prop) (p : Parser α) : Prop :=
  ∀ (o : ParseOptions) (c c' : Cursor) (a : α), p o c = some (a, c') → P a

namespace Yields

theorem bind {p : Parser α} {f : α → Parser β} (first : Yields P p) (rest : ∀ a, P a → Yields Q (f a)) :
    Yields Q (p >>= f) := by
  intro o c c' b run
  obtain ⟨a, c₁, begun, run⟩ := bind_inv run
  exact rest a (first o c c₁ a begun) o c₁ c' b run

theorem after {p : Parser α} {f : α → Parser β} (rest : ∀ a, Yields Q (f a)) : Yields Q (p >>= f) := by
  intro o c c' b run
  obtain ⟨a, c₁, -, run⟩ := bind_inv run
  exact rest a o c₁ c' b run

theorem pure {a : α} (holds : P a) : Yields P (Pure.pure a : Parser α) := by
  intro o c c' b run
  cases run
  exact holds

theorem fail : Yields P (Parser.fail : Parser α) := fun _ _ _ _ run => by cases run

theorem ite {condition : Prop} [Decidable condition] {p q : Parser α} (left : Yields P p) (right : Yields P q) :
    Yields P (if condition then p else q) := by
  split
  · exact left
  · exact right

theorem orElse {p q : Parser α} (left : Yields P p) (right : Yields P q) : Yields P (Parser.orElse p q) := by
  intro o c c' a run
  unfold Parser.orElse at run
  split at run
  · exact right o c c' a run
  · exact left o c c' a run

theorem optional {p : Parser α} (each : Yields P p) : Yields (fun found => ∀ a ∈ found, P a) (Parser.optional p) := by
  intro o c c' found run a isFound
  rcases optional_inv run with ⟨b, rfl, step⟩ | ⟨rfl, -⟩
  · cases isFound
    exact each o c c' a step
  · cases isFound

theorem many {p : Parser α} (each : Yields P p) : Yields (fun found => ∀ a ∈ found, P a) (Parser.many p) := by
  have repeated : ∀ (fuel : Nat) (done : List α), (∀ a ∈ done, P a) →
      Yields (fun found => ∀ a ∈ found, P a) (Parser.repeatFrom p fuel done) := by
    intro fuel
    induction fuel with
    | zero => exact fun done isDone => .pure fun a inside => isDone a (List.mem_reverse.mp inside)
    | succ fuel ih =>
      refine fun done isDone => each.optional.bind fun found isFound => ?_
      cases found with
      | none => exact .pure fun a inside => isDone a (List.mem_reverse.mp inside)
      | some a => exact ih _ (List.forall_mem_cons.mpr ⟨isFound a rfl, isDone⟩)
  exact fun o c => repeated _ _ (List.forall_mem_nil _) o c

theorem commas {p : Parser α} (each : Yields P p) : Yields (fun found => ∀ a ∈ found, P a) (Parser.commas p) :=
  each.bind fun _ first => (Yields.many (.after fun _ => each)).bind fun _ rest =>
    .pure (List.forall_mem_cons.mpr ⟨first, rest⟩)

theorem commaList {p : Parser α} (each : Yields P p) :
    Yields (fun found => ∀ a ∈ found.1, P a) (Parser.commaList p) :=
  each.commas.bind fun _ all => .after fun _ => .pure all

/-- A node of a statement, given what its slots hold. -/
theorem node {role : Role} {start : Mark} {kind : Kind} {slots : List (List Tree)} (isRole : kind.role = role)
    (plain : kind.isPlain slots = true) (filled : FillsSlots kind 0 slots) :
    Yields (fun t => t.Fills role) (Parser.node start kind slots) := by
  intro o c c' t run
  cases run
  exact .node isRole plain filled

theorem part {start : Mark} {kind : Kind} {slots : List (List Tree)} (isPart : kind.role = .part)
    (plain : kind.isPlain slots = true) (parts : ∀ slot ∈ slots, ∀ t ∈ slot, t.IsPart) :
    Yields IsPart (Parser.node start kind slots) :=
  node isPart plain (.of_parts isPart parts 0)

end Yields

/-- Rules that give statements where blocks are read, and parts of statements elsewhere. -/
structure FilledRules (r : Rules) : Prop where
  parts : ∀ rule, Reading.isBlock rule = false → Yields (fun ts => ∀ t ∈ ts, t.IsPart) (r rule)
  blocks : ∀ rule, Reading.isBlock rule = true → Yields (fun ts => ∀ t ∈ ts, t.IsStatement) (r rule)

theorem isPart_target {usage : Usage} {t target : Tree} (isPart : t.IsPart) (isTarget : target? usage t = some target) :
    target.IsPart := by
  induction t using Tree.inductionOn generalizing target with
  | node m kind slots ih =>
    have targets : ∀ {targets : List (List Tree)}, (∀ slot ∈ slots, ∀ t ∈ slot, t.IsPart) →
        targetSlots? usage slots = some targets → ∀ slot ∈ targets, ∀ target ∈ slot, target.IsPart := by
      intro targets parts found slot isSlot target inSlot
      obtain ⟨slot, isSlot, all⟩ := Reading.exists_of_targetSlots? found slot isSlot
      obtain ⟨u, inSlot, isTarget⟩ := all target inSlot
      exact ih slot isSlot u inSlot (parts slot isSlot u inSlot) isTarget
    cases kind with
    | name | «attribute» | subscript =>
      cases isTarget
      exact .part rfl rfl (isPart.parts rfl)
    | starred =>
      rw [target?] at isTarget
      split at isTarget
      · cases isTarget
      · obtain ⟨slots', found, rfl⟩ := Option.map_eq_some_iff.mp isTarget
        exact .part rfl rfl (targets (isPart.parts rfl) found)
    | list | tuple =>
      obtain ⟨slots', found, rfl⟩ := Option.map_eq_some_iff.mp isTarget
      exact .part rfl rfl (targets (isPart.parts rfl) found)
    | _ => simp [target?] at isTarget

namespace FilledRules

variable {r : Rules} (h : FilledRules r)
include h

/-! ## Expressions -/

theorem one (rule : Rule) [ofParts : Reading.OfParts rule] : Yields IsPart (Parser.one r rule) := by
  refine (h.parts rule ofParts.isBlock).bind fun found parts => ?_
  split
  · exact .pure (parts _ (.head _))
  · exact .fail

omit h in
/-- Items with commas between them; one alone stands for itself. -/
theorem items {kind : Kind} {start : Mark} {found : List Tree × Bool} (isPart : kind.role = .part)
    (plain : ∀ ts, kind.isPlain [ts] = true) : (∀ t ∈ found.1, t.IsPart) → Yields IsPart (match found with
      | ([t], false) => Pure.pure t
      | (ts, _) => Parser.node start kind [ts]) := by
  intro each
  split
  · exact .pure (each _ List.mem_cons_self)
  · exact .part isPart (plain _) (by simpa using each)

theorem starTarget : Yields IsPart (Parser.starTarget r) := by
  refine .after fun _ => .after fun _ => ?_
  extract_lets rest
  have last : ∀ t, t.IsPart → Yields IsPart (rest t) := by
    intro t isPart
    unfold rest
    split
    case h_1 isTarget => exact .pure (isPart_target isPart isTarget)
    case h_2 => exact .fail
  exact .ite ((h.one _).bind fun _ inner => .after fun _ => .bind (.part rfl rfl (by simp [inner])) last)
    ((h.one _).bind last)

theorem starTargets : Yields IsPart (Parser.starTargets r) :=
  .after fun _ => h.starTarget.commaList.bind fun _ parts => items rfl (fun _ => rfl) parts

theorem starred (inner : Rule) [Reading.OfParts inner] : Yields IsPart (Parser.starred r inner) :=
  .after fun _ => .after fun _ => (h.one _).bind fun _ t => .part rfl rfl (by simp [t])

theorem starExpression : Yields IsPart (Parser.starExpression r) := .after fun _ => .ite (h.starred _) (h.one _)

theorem starNamed : Yields IsPart (Parser.starNamed r) := .after fun _ => .ite (h.starred _) (h.one _)

theorem starExpressions : Yields IsPart (Parser.starExpressions r) :=
  .after fun _ => h.starExpression.commaList.bind fun _ parts => items rfl (fun _ => rfl) parts

theorem yieldExpr : Yields IsPart (Parser.yieldExpr r) :=
  .after fun _ => .after fun _ => .after fun _ => .ite ((h.one _).bind fun _ t => .part rfl rfl (by simp [t]))
    ((h.one _).optional.bind fun _ value => .part rfl rfl (by simpa using value))

theorem named : Yields IsPart (Parser.named r) :=
  .after fun _ => .after fun _ => .ite
    (.after fun _ => .bind (.part rfl rfl (by simp)) fun _ target => .after fun _ => (h.one _).bind fun _ value =>
      .after fun _ => .part rfl rfl (by simp [target, value]))
    ((h.one _).bind fun _ t => .after fun _ => .after fun _ => .pure t)

theorem clause : Yields IsPart (Parser.clause r) := by
  refine .after fun start => .after fun isAsync => .after fun _ => h.starTargets.bind fun target isTarget =>
    .after fun _ => (h.one _).bind fun iterable isIterable => (Yields.many (.after fun _ => h.one .disjunction)).bind
    fun conditions areParts => ?_
  have node : Yields IsPart (Parser.node start (.comprehension isAsync) [[target], [iterable], conditions]) :=
    .part rfl rfl (by simpa [isTarget, isIterable] using areParts)
  exact .ite (.after fun _ => node) node

theorem clauses : Yields (fun ts => ∀ t ∈ ts, t.IsPart) (Parser.clauses r) :=
  h.clause.bind fun _ first => h.clause.many.bind fun _ rest => .pure (List.forall_mem_cons.mpr ⟨first, rest⟩)

/-! ## Parameters -/

theorem parameter (annotated starAnnotation : Bool) :
    Yields (FillsParameter annotated) (Parser.parameter r annotated starAnnotation) := by
  refine .after fun start => .after fun id => ?_
  extract_lets rest
  have last : ∀ typed : List Tree, (∀ t ∈ typed, t.IsPart) → (annotated = false → typed = []) →
      Yields (FillsParameter annotated) (rest typed) := by
    intro typed parts untyped o c c' t run
    cases run
    exact .node parts untyped
  have given : ∀ typed : List Tree, (∀ t ∈ typed, t.IsPart) → (annotated = false → typed = []) →
      Yields (FillsParameter annotated) ((Pure.pure typed : Parser (List Tree)) >>= rest) :=
    fun typed parts untyped => .bind (P := fun found => found = typed) (.pure rfl) fun _ same => same ▸ last typed parts untyped
  have none := given [] (by simp) fun _ => rfl
  split
  case isFalse => exact none
  case isTrue isAnnotated =>
    have typed : ∀ {p : Parser Tree}, Yields IsPart p →
        Yields (FillsParameter annotated) (p >>= fun t => (Pure.pure [t] : Parser (List Tree)) >>= rest) :=
      fun part => part.bind fun t isPart => given [t] (by simpa using isPart) fun noAnnotation =>
        absurd (isAnnotated.symm.trans noAnnotation) (by decide)
    exact .after fun _ => .ite (.after fun _ => .ite (typed (h.starred _)) (typed (h.one _))) none

omit h in
theorem afterParameter {annotated : Bool} {t : Tree} (isParameter : t.FillsParameter annotated) :
    Yields (fun found => found.1.FillsParameter annotated) (Parser.afterParameter annotated t) := by
  refine .after fun _ => ?_
  extract_lets rest
  have last : ∀ comment, Yields (fun found => found.1.FillsParameter annotated) (rest comment) := by
    intro comment
    unfold rest
    split
    · exact .pure isParameter.commented
    · exact .pure isParameter
  exact .ite (.after last) (.after last)

theorem parametersFrom (annotated : Bool) (stops : Token → Bool) (fuel : Nat) {p : Parameters} (fits : p.Fits annotated) :
    Yields (Parameters.Fits annotated) (Parser.parametersFrom r annotated stops fuel p) := by
  induction fuel generalizing p with
  | zero => exact .fail
  | succ fuel ih =>
    refine .after fun _ => .ite (.after fun _ => .pure fits) (.ite ?keywords (.ite ?star (.ite ?slash ?plain)))
    case keywords =>
      exact .after fun _ => .after fun _ => (h.parameter _ _).bind fun _ a => (afterParameter a).bind fun _ a =>
        .after fun _ => .after fun _ => .pure { fits with keywords := by simpa using a }
    case star =>
      exact .after fun _ => .after fun _ => .after fun _ => .ite (ih { fits with }) ((h.parameter _ _).bind fun _ a =>
        (afterParameter a).bind fun _ a => .after fun _ => .after fun _ => ih { fits with variadic := by simpa using a })
    case slash =>
      exact .after fun _ => .after fun _ => .after fun _ => .after fun _ => .after fun _ => .after fun _ =>
        ih { fits with positionalOnly := fits.positional, positional := by simp }
    case plain =>
      refine (h.parameter _ _).bind fun _ a => .after fun _ => ?_
      extract_lets rest
      have last : ∀ preset : Option Tree, (∀ d ∈ preset, d.IsPart) → Yields (Parameters.Fits annotated) (rest preset) := by
        intro preset isPart
        refine (afterParameter a).bind fun a isParameter => .after fun _ => .after fun _ => .ite (ih { fits with
          keywordOnly := ?_, keywordDefaults := ?_ }) (.ite .fail (ih { fits with positional := ?_, defaults := ?_ }))
        · exact List.forall_mem_append.mpr ⟨fits.keywordOnly, by simpa using isParameter⟩
        · exact List.forall_mem_append.mpr ⟨fits.keywordDefaults, by cases preset <;> simp_all [isPart_absent]⟩
        · exact List.forall_mem_append.mpr ⟨fits.positional, by simpa using isParameter⟩
        · exact List.forall_mem_append.mpr ⟨fits.defaults, by simpa using isPart⟩
      exact .ite ((h.one _).bind fun d isPart => .bind (.pure (by simpa using isPart)) last) (.bind (.pure nofun) last)

theorem parameters (annotated : Bool) (stops : Token → Bool) :
    Yields (FillsParameters annotated) (Parser.parameters r annotated stops) :=
  fun o c => Yields.bind (h.parametersFrom annotated stops _ ⟨by simp, by simp, by simp, by simp, by simp, by simp, by simp⟩) (fun _ fits => .pure fits.tree) o c

theorem lambdaExpr : Yields IsPart (Parser.lambdaExpr r) := by
  refine .after fun _ => .after fun _ => (h.parameters _ _).bind fun ps isParameters => .after fun _ =>
    (h.one _).bind fun body isPart => ?_
  intro o c c' t run
  cases run
  have each : ∀ slot ∈ [[ps], [body]], ∀ t ∈ slot, t.Formed ∧ t.kind.role = .part ∧ t.isLoose = false := by
    simp [isParameters.formed, isParameters.role, isParameters.tight, isPart.formed, isPart.role, isPart.tight]
  refine ⟨formed_node.mpr ⟨⟨fun slot isSlot t inSlot => ?_, rfl, ?_⟩, fun slot isSlot t inSlot =>
    (each slot isSlot t inSlot).1⟩, rfl, rfl⟩
  · rw [(each _ (List.fst_mem_of_mem_zipIdx isSlot) t inSlot).2.1]
    exact (Kind.holds_of_part rfl slot.2).symm
  · change (Kind.isSignature [[ps], [], [], []] && ([([ps], 0), ([body], 1)] : List (List Tree × Nat)).all
      fun slot => slot.1.all fun t => !t.isLoose) = true
    simp [isParameters.signature, isParameters.tight, isPart.tight]

/-! ## Literals -/

/-- The trees among the parts of a formatted literal are parts of a statement. -/
def PiecesFill (parts : List (List CodePoint ⊕ Tree)) : Prop := ∀ t, .inr t ∈ parts → t.IsPart

omit h in
theorem part_joined {span : Mark} {marked : Bool} {parts : List (List CodePoint ⊕ Tree)} (fill : PiecesFill parts) :
    (Tree.node span .joinedStr [partTrees span marked parts]).IsPart := by
  refine .part rfl rfl fun slot isSlot t inSlot => ?_
  obtain rfl := List.mem_singleton.mp isSlot
  obtain ⟨part, isPart, shown⟩ := List.mem_filterMap.mp inSlot
  split at shown
  · cases shown
  · cases shown
    exact .part rfl rfl (by simp)
  · cases shown
    exact fill t (Reading.mem_joinPlain isPart)

theorem fieldExpression (expression : Text) (line column : Nat) :
    Yields IsPart (Parser.fieldExpression r expression line column) := by
  intro o c c' t run
  unfold Parser.fieldExpression at run
  dsimp only at run
  split at run
  case h_1 inner =>
    cases run
    exact h.one _ _ _ _ _ inner
  case h_2 => cases run

theorem pieceParts (span : Mark) (fuel : Nat) (pieces : List Piece) :
    Yields PiecesFill (Parser.pieceParts r span fuel pieces) := by
  induction fuel generalizing pieces with
  | zero => exact .fail
  | succ fuel ih =>
    cases pieces with
    | nil => exact .pure fun _ inside => nomatch inside
    | cons piece rest =>
      cases piece with
      | plain text => exact (ih rest).bind fun more fill => .pure fun t inside => fill t (by simpa using inside)
      | field expression line column shown conversion format =>
        refine (h.fieldExpression _ _ _).bind fun value isPart => ?_
        extract_lets next
        have last : ∀ spec, (∀ t ∈ spec, t.IsPart) → Yields PiecesFill (next spec) := by
          refine fun spec parts => (ih rest).bind fun more fill => .pure fun t inside => ?_
          have field : (Tree.node span (.formattedValue conversion) [[value], spec]).IsPart :=
            .part rfl rfl (by simpa [isPart] using parts)
          simp only [List.mem_append, List.mem_map, reduceCtorEq, and_false, exists_false, false_or, List.mem_cons,
            Sum.inr.injEq] at inside
          exact inside.elim (fun same => same ▸ field) (fill t)
        split
        · exact .bind (.pure (by simp)) last
        · exact (ih _).bind fun parts fill => .bind (.pure (by simpa using part_joined fill)) last

theorem tokenParts (span : Mark) (t : Token) : Yields PiecesFill (Parser.tokenParts r span t) := by
  unfold Parser.tokenParts
  refine .ite (.after fun _ => ?_) ?_
  · split
    · exact .ite (.after fun _ => h.pieceParts _ _ _) (h.pieceParts _ _ _)
    · exact .fail
  · split
    · exact .pure fun t inside => by simp at inside
    · exact .fail

theorem strings : Yields IsPart (Parser.strings r) := by
  have each : ∀ span (run : List Token), Yields (fun parts => ∀ part ∈ parts, PiecesFill part)
      (run.mapM (Parser.tokenParts r span)) := by
    intro span run
    induction run with
    | nil => exact .pure (List.forall_mem_nil _)
    | cons t run ih =>
      rw [List.mapM_cons]
      exact (h.tokenParts span t).bind fun _ first => ih.bind fun _ later => .pure (List.forall_mem_cons.mpr ⟨first, later⟩)
  have constant : ∀ span value marked, Yields IsPart (Pure.pure (Tree.node span (.constant value marked) []) : Parser Tree) :=
    fun _ _ _ => .pure (.part rfl rfl (by simp))
  refine .after fun _ => .after fun _ => .after fun _ => .ite (.ite ?_ .fail) ((each _ _).bind fun parts fill => .ite ?_ ?_)
  · split
    · exact .part rfl rfl (by simp)
    · exact .fail
  · refine .pure (part_joined fun t inside => ?_)
    obtain ⟨part, isPart, inPart⟩ := List.mem_flatten.mp inside
    exact fill part isPart t inPart
  · exact constant _ _ _

/-! ## Atoms -/

omit h in
theorem leaf {kind : Kind} {start : Mark} (isPart : kind.role = .part) (plain : kind.isPlain [] = true) :
    Yields IsPart (Parser.node start kind []) := .part isPart plain (by simp)

omit h in
theorem rest_items {α : Type} {P : α → Prop} {found : Option (List α × Bool)} (each : ∀ found' ∈ found, ∀ a ∈ found'.1, P a) :
    ∀ a ∈ (found.map Prod.fst).getD [], P a := by
  cases found with
  | none => exact List.forall_mem_nil _
  | some found => exact each found rfl

theorem parenthesized : Yields IsPart (Parser.parenthesized r) :=
  .after fun _ => .after fun _ => .after fun _ => .ite (.part rfl rfl (by simp)) (.after fun _ => .ite
    (h.yieldExpr.bind fun _ t => .after fun _ => .pure t) (h.starNamed.bind fun _ first => .after fun _ => .ite
      (h.clauses.bind fun _ clauses => .after fun _ => .part rfl rfl (by simpa [first] using clauses))
      (.after fun _ => .ite
        (h.starNamed.commaList.optional.bind fun _ rest => .after fun _ =>
          .part rfl rfl (by simpa [first] using rest_items rest))
        (.after fun _ => .after fun _ => .pure first))))

theorem bracketed : Yields IsPart (Parser.bracketed r) := by
  refine .after fun start => .after fun _ => .after fun _ => .ite (.part rfl rfl (by simp)) (h.starNamed.bind
    fun first isPart => .after fun _ => .ite
      (h.clauses.bind fun _ clauses => .after fun _ => .part rfl rfl (by simpa [isPart] using clauses)) (.after fun _ => ?_))
  extract_lets next
  have last : ∀ rest, (∀ found ∈ rest, ∀ t ∈ found.1, t.IsPart) → Yields IsPart (next rest) := fun rest parts =>
    .after fun _ => .part rfl rfl (by simpa [isPart] using rest_items parts)
  exact .ite (h.starNamed.commaList.optional.bind last) (.bind (.pure nofun) last)

theorem entry : Yields (fun found => found.1.IsPart ∧ found.2.IsPart) (Parser.entry r) :=
  .after fun _ => .ite ((h.one _).bind fun _ v => .pure ⟨isPart_absent, v⟩)
    ((h.one _).bind fun _ k => .after fun _ => (h.one _).bind fun _ v => .pure ⟨k, v⟩)

theorem dictRest {start : Mark} {k v : Tree} (isKey : k.IsPart) (isValue : v.IsPart) :
    Yields IsPart (Parser.dictRest r start k v) := by
  refine .after fun _ => .ite
    (h.clauses.bind fun _ clauses => .after fun _ => .part rfl rfl (by simpa [isKey, isValue] using clauses))
    (.after fun _ => ?_)
  extract_lets next
  have last : ∀ rest, (∀ found ∈ rest, ∀ e ∈ found.1, e.1.IsPart ∧ e.2.IsPart) → Yields IsPart (next rest) := by
    refine fun rest parts => .after fun _ => .part rfl rfl ?_
    have entries : ∀ e ∈ (k, v) :: (rest.map Prod.fst).getD [], e.1.IsPart ∧ e.2.IsPart :=
      List.forall_mem_cons.mpr ⟨⟨isKey, isValue⟩, rest_items parts⟩
    exact List.forall_mem_cons.mpr ⟨List.forall_mem_map.mpr fun e inside => (entries e inside).1,
      List.forall_mem_cons.mpr ⟨List.forall_mem_map.mpr fun e inside => (entries e inside).2, List.forall_mem_nil _⟩⟩
  exact .ite (h.entry.commaList.optional.bind last) (.bind (.pure nofun) last)

theorem braced : Yields IsPart (Parser.braced r) := by
  refine .after fun start => .after fun _ => .after fun _ => .ite (.part rfl rfl (by simp)) (.after fun _ => .ite
    (h.entry.bind fun _ pair => h.dictRest pair.1 pair.2) (.after fun _ => h.starNamed.bind fun first isPart =>
      .after fun _ => .ite ((h.one _).bind fun _ v => h.dictRest isPart v) (.after fun _ => .ite
        (h.clauses.bind fun _ clauses => .after fun _ => .part rfl rfl (by simpa [isPart] using clauses))
        (.after fun _ => ?_))))
  extract_lets next
  have last : ∀ rest, (∀ found ∈ rest, ∀ t ∈ found.1, t.IsPart) → Yields IsPart (next rest) := fun rest parts =>
    .after fun _ => .part rfl rfl (by simpa [isPart] using rest_items parts)
  exact .ite (h.starNamed.commaList.optional.bind last) (.bind (.pure nofun) last)

omit h in
theorem number : Yields IsPart Parser.number :=
  .after fun _ => .after fun _ => .after fun _ => .ite (.after fun _ => leaf rfl rfl) (leaf rfl rfl)

theorem atom : Yields IsPart (Parser.atom r) := by
  have name : ∀ start : Mark, Yields IsPart (Parser.name >>= fun id => Parser.node start (.name id .load) []) :=
    fun _ => .after fun _ => leaf rfl rfl
  refine .after fun start => .after fun t => ?_
  split
  · exact h.strings
  · exact number
  · exact name start
  · extract_lets literal
    clear_value literal
    cases literal with
    | some v => exact .after fun _ => leaf rfl rfl
    | none => exact name start
  · exact .ite h.parenthesized (.ite h.bracketed (.ite h.braced (.ite (.after fun _ => leaf rfl rfl) .fail)))
  · exact .fail

/-! ## Calls, attributes and elements -/

omit h in
theorem node_one {kind : Kind} {start : Mark} {t : Tree} (isPart : kind.role = .part) (plain : kind.isPlain [[t]] = true)
    (part : t.IsPart) : Yields IsPart (Parser.node start kind [[t]]) := .part isPart plain (by simpa using part)

/-- The trees that arguments hold are parts of a statement. -/
structure ArgumentsFill (a : Arguments) : Prop where
  positional : ∀ t ∈ a.positional, t.IsPart
  keywords : ∀ t ∈ a.keywords, t.IsPart
  generator : ∀ t ∈ a.generator, t.IsPart

theorem argumentsFrom (fuel : Nat) {a : Arguments} (fill : ArgumentsFill a) :
    Yields ArgumentsFill (Parser.argumentsFrom r fuel a) := by
  induction fuel generalizing a with
  | zero => exact .fail
  | succ fuel ih =>
    have added : ∀ {ts : List Tree} {t : Tree}, (∀ t ∈ ts, t.IsPart) → t.IsPart → ∀ u ∈ ts ++ [t], u.IsPart :=
      fun parts isPart => List.forall_mem_append.mpr ⟨parts, by simpa using isPart⟩
    refine .after fun _ => .ite (.pure fill) (.after fun start => ?_)
    extract_lets more
    have last : ∀ a, ArgumentsFill a → Yields ArgumentsFill (more a) :=
      fun a fill => .after fun _ => .ite (ih fill) (.after fun _ => .after fun _ => .pure fill)
    refine .after fun _ => .ite ((h.one _).bind fun _ v => (node_one rfl rfl v).bind fun _ k =>
        last _ { fill with keywords := added fill.keywords k }) (.after fun _ => .ite
      ((h.starred _).bind fun _ v => .after fun _ => last _ { fill with positional := added fill.positional v })
      (.after fun _ => .ite ?keyword ?positional))
    case keyword =>
      exact .after fun _ => .after fun _ => (h.one _).bind fun _ v => (node_one rfl rfl v).bind fun _ k =>
        last _ { fill with keywords := added fill.keywords k }
    case positional =>
      exact (h.one _).bind fun _ v => .after fun _ => .ite
        (h.clauses.bind fun _ clauses => .after fun _ => .after fun _ =>
          .pure { fill with positional := by simpa using v, generator := clauses })
        (.after fun _ => .after fun _ => last _ { fill with positional := added fill.positional v })

theorem arguments : Yields ArgumentsFill (Parser.arguments r) :=
  fun o c => h.argumentsFrom _ ⟨by simp, by simp, by simp⟩ o c

theorem index : Yields IsPart (Parser.index r) := by
  refine .after fun start => .after fun _ => .ite (h.starred _) (.after fun isWalrus => .after fun _ => ?_)
  extract_lets isEnd next
  have last : ∀ lower, (∀ t ∈ lower, t.IsPart) → Yields IsPart (next lower) := by
    intro lower isLower
    refine .after fun _ => .ite (.after fun _ => ?_) ?_
    · extract_lets upperNext
      have isUpper : ∀ upper, (∀ t ∈ upper, t.IsPart) → Yields IsPart (upperNext upper) := by
        intro upper isUpper
        refine .after fun _ => ?_
        extract_lets stepNext
        have isStep : ∀ step, (∀ t ∈ step, t.IsPart) → Yields IsPart (stepNext step) := fun step isStep =>
          .part rfl rfl (by simpa using ⟨isLower, isUpper, isStep⟩)
        exact .ite (.after fun _ => .ite (.bind (.pure nofun) isStep) ((h.one _).optional.bind isStep))
          (.bind (.pure nofun) isStep)
      exact .ite (.bind (.pure nofun) isUpper) ((h.one _).optional.bind isUpper)
    · split
      · exact .pure (isLower _ rfl)
      · exact .fail
  exact .ite (.bind (.pure nofun) last) ((h.one _).bind fun t isPart => .bind (.pure (by simpa using isPart)) last)

theorem indices : Yields IsPart (Parser.indices r) := by
  refine .after fun start => h.index.commaList.bind fun found parts => ?_
  split
  · have first : (_ : Tree).IsPart := parts _ (.head _)
    exact .ite (node_one rfl rfl first) (.pure first)
  · exact .part rfl rfl (by simpa using parts)

theorem trailers (start : Mark) (fuel : Nat) {t : Tree} (isPart : t.IsPart) :
    Yields IsPart (Parser.trailers r start fuel t) := by
  induction fuel generalizing t with
  | zero => exact .pure isPart
  | succ fuel ih =>
    refine .after fun _ => .ite (.after fun _ => .after fun _ => (node_one rfl rfl isPart).bind fun _ t => ih t)
      (.ite ?call (.ite (.after fun _ => h.indices.bind fun _ i => .after fun _ =>
        .bind (.part rfl rfl (by simp [isPart, i])) fun _ t => ih t) (.pure isPart)))
    case call =>
      refine .after fun _ => .after fun _ => h.arguments.bind fun a fill => .after fun _ => ?_
      extract_lets next
      have last : ∀ positional : List Tree, (∀ t ∈ positional, t.IsPart) → Yields IsPart (next positional) :=
        fun positional parts => .bind (.part rfl rfl (by simpa [isPart] using ⟨parts, fill.keywords⟩)) fun _ t => ih t
      exact .ite (.bind (.pure fill.positional) last)
        (.bind (.part rfl rfl (by simpa using ⟨fill.positional, fill.generator⟩)) fun _ g =>
          .bind (.pure (by simpa using g)) last)

theorem primary : Yields IsPart (Parser.primary r) :=
  .after fun _ => h.atom.bind fun _ t o c => h.trailers _ (c.rest.length + 1) t o c

/-! ## Operators -/

theorem awaitPrimary : Yields IsPart (Parser.awaitPrimary r) :=
  .after fun _ => .after fun _ => .ite (h.primary.bind fun _ t => .after fun _ => node_one rfl rfl t) h.primary

theorem power : Yields IsPart (Parser.power r) :=
  .after fun _ => h.awaitPrimary.bind fun _ left => .after fun _ => .ite
    ((h.one _).bind fun _ right => .part rfl rfl (by simp [left, right])) (.pure left)

theorem factor : Yields IsPart (Parser.factor r) := by
  refine .after fun start => .after fun t => ?_
  extract_lets sign
  clear_value sign
  cases sign with
  | none => exact h.power
  | some o => exact .after fun _ => (h.one _).bind fun _ operand => node_one rfl rfl operand

omit h in
theorem leftFrom {start : Mark} {operator : Parser BinaryOperator} {operand : Parser Tree} (part : Yields IsPart operand)
    (fuel : Nat) {left : Tree} (isPart : left.IsPart) :
    Yields IsPart (Parser.leftFrom start operator operand fuel left) := by
  induction fuel generalizing left with
  | zero => exact .pure isPart
  | succ fuel ih =>
    refine (Yields.optional (.after fun _ => part.bind fun _ right => .part rfl rfl (by simp [isPart, right]))).bind
      fun found more => ?_
    cases found with
    | none => exact .pure isPart
    | some tree => exact ih (more tree rfl)

omit h in
theorem leftAssoc (operators : List (String × BinaryOperator)) {operand : Parser Tree} (part : Yields IsPart operand) :
    Yields IsPart (Parser.leftAssoc operators operand) :=
  .after fun _ => part.bind fun _ first o c => leftFrom part (c.rest.length + 1) first o c

theorem bitOr : Yields IsPart (Parser.bitOr r) :=
  leftAssoc _ (leftAssoc _ (leftAssoc _ (leftAssoc _ (leftAssoc _ (leftAssoc _ h.factor)))))

theorem comparison : Yields IsPart (Parser.comparison r) :=
  .after fun _ => h.bitOr.bind fun _ first =>
    (Yields.many (P := fun found : CompareOperator × Tree => found.2.IsPart)
      (.after fun _ => h.bitOr.bind fun _ t => .pure t)).bind fun _ rest => .ite (.pure first)
      (.part rfl rfl (by simpa [first] using fun t o inside => rest (o, t) inside))

theorem inversion : Yields IsPart (Parser.inversion r) :=
  .after fun _ => .after fun _ => .ite ((h.one _).bind fun _ t => node_one rfl rfl t) h.comparison

omit h in
theorem chained (between : String) (o : BoolOperator) {operand : Parser Tree} (part : Yields IsPart operand) :
    Yields IsPart (Parser.chained between o operand) :=
  .after fun _ => part.bind fun _ first => (Yields.many (.after fun _ => part)).bind fun _ rest =>
    .ite (.pure first) (.part rfl rfl (by simpa [first] using rest))

theorem disjunction : Yields IsPart (Parser.disjunction r) := chained _ _ (chained _ _ h.inversion)

theorem expression : Yields IsPart (Parser.expression r) := by
  refine .after fun _ => .ite h.lambdaExpr (.after fun start => h.disjunction.bind fun body isBody =>
    (Yields.optional (P := fun found : Tree × Tree => found.1.IsPart ∧ found.2.IsPart) (.after fun _ =>
      h.disjunction.bind fun _ test => .after fun _ => (h.one _).bind fun _ other => .pure ⟨test, other⟩)).bind
    fun choice parts => ?_)
  split
  · obtain ⟨test, other⟩ := parts _ rfl
    exact .part rfl rfl (by simp [isBody, test, other])
  · exact .pure isBody

/-! ## Patterns -/

omit h in
theorem signedNumber : Yields IsPart Parser.signedNumber :=
  .after fun _ => .after fun _ => .ite (number.bind fun _ n => node_one rfl rfl n) number

omit h in
theorem numberPattern : Yields IsPart Parser.numberPattern := by
  refine .after fun start => .after fun _ => signedNumber.bind fun left isLeft => .after fun t => ?_
  extract_lets o
  clear_value o
  cases o with
  | none => exact .pure isLeft
  | some o =>
    exact .after fun _ => .after fun _ => .after fun _ => number.bind fun _ right =>
      .part rfl rfl (by simp [isLeft, right])

omit h in
theorem dottedFrom {start : Mark} (fuel : Nat) {t : Tree} (isPart : t.IsPart) :
    Yields IsPart (Parser.dottedFrom start fuel t) := by
  induction fuel generalizing t with
  | zero => exact .pure isPart
  | succ fuel ih =>
    exact .after fun _ => .ite (.after fun _ => (node_one rfl rfl isPart).bind fun _ t => ih t) (.pure isPart)

theorem literalOrValue : Yields IsPart (Parser.literalOrValue r) := by
  refine .after fun start => .after fun t => ?_
  split
  · exact h.strings
  · exact numberPattern
  · exact numberPattern
  · exact .ite h.atom (.after fun _ => (leaf rfl rfl).bind fun _ base => .after fun _ => .after fun _ o c =>
      dottedFrom (c.rest.length + 1) base o c)

theorem maybeStarPattern : Yields IsPart (Parser.maybeStarPattern r) :=
  .after fun _ => .after fun _ => .ite (.after fun _ => leaf rfl rfl) (h.one _)

theorem parenthesizedPattern : Yields IsPart (Parser.parenthesizedPattern r) := by
  refine .after fun start => .after fun _ => .after fun _ => .ite (.part rfl rfl (by simp))
    (h.maybeStarPattern.commaList.bind fun found parts => .after fun _ => ?_)
  obtain ⟨ps, comma⟩ := found
  dsimp only
  split
  · split
    · exact .fail
    · exact .pure (parts _ (.head _))
  · exact .part rfl rfl (by simpa using parts)

theorem mappingEntry : Yields (fun found => found.1.IsPart ∧ found.2.IsPart) (Parser.mappingEntry r) :=
  h.literalOrValue.bind fun _ k => .after fun _ => (h.one _).bind fun _ p => .pure ⟨k, p⟩

theorem mappingPattern : Yields IsPart (Parser.mappingPattern r) := by
  refine .after fun start => .after fun _ => h.mappingEntry.commas.optional.bind fun found parts => ?_
  extract_lets entries restNext commaNext
  have each : ∀ e ∈ entries, e.1.IsPart ∧ e.2.IsPart := by
    cases found with
    | none => exact List.forall_mem_nil _
    | some found => exact parts found rfl
  have node : ∀ rest, Yields IsPart (restNext rest) := fun rest => .after fun _ => .part rfl rfl
    (List.forall_mem_cons.mpr ⟨List.forall_mem_map.mpr fun e inside => (each e inside).1,
      List.forall_mem_cons.mpr ⟨List.forall_mem_map.mpr fun e inside => (each e inside).2, List.forall_mem_nil _⟩⟩)
  have last : ∀ comma, Yields IsPart (commaNext comma) := fun comma => .after fun _ => .ite
    (.after fun _ => .after fun _ => .after fun _ => .after fun _ => .after node) (.after node)
  exact .ite (.after last) (.after last)

theorem classArgument : Yields (fun found => found.2.IsPart) (Parser.classArgument r) :=
  .after fun _ => .ite (.after fun _ => .after fun _ => (h.one _).bind fun _ p => .pure p)
    ((h.one _).bind fun _ p => .pure p)

theorem namePattern : Yields IsPart (Parser.namePattern r) := by
  refine .after fun start => .after fun id => (leaf rfl rfl).bind fun base isPart => .ite (.part rfl rfl (by simp)) ?_
  refine .bind (P := IsPart) (fun o c => dottedFrom (c.rest.length + 1) isPart o c) fun dotted isDotted => .after fun _ =>
    .ite (.after fun _ => h.classArgument.commaList.optional.bind fun found parts => ?_) ?_
  · extract_lets arguments positional keyword
    have each : ∀ e ∈ arguments, e.2.IsPart := rest_items parts
    refine .after fun _ => .after fun _ => .part rfl rfl ?_
    refine List.forall_mem_cons.mpr ⟨by simpa using isDotted, List.forall_mem_cons.mpr
      ⟨List.forall_mem_map.mpr fun e inside => each e ((List.takeWhile_prefix _).subset inside), List.forall_mem_cons.mpr
      ⟨List.forall_mem_map.mpr fun e inside => each e ((List.dropWhile_suffix _).subset inside), List.forall_mem_nil _⟩⟩⟩
  · split
    · exact .part rfl rfl (by simp)
    · exact node_one rfl rfl isDotted

theorem closedPattern : Yields IsPart (Parser.closedPattern r) := by
  have value : ∀ start : Mark, Yields IsPart (Parser.literalOrValue r >>= fun v => Parser.node start .matchValue [[v]]) :=
    fun _ => h.literalOrValue.bind fun _ v => node_one rfl rfl v
  refine .after fun start => .after fun t => ?_
  split
  · exact value start
  · exact value start
  · exact h.namePattern
  · extract_lets singleton
    clear_value singleton
    cases singleton with
    | none => exact h.namePattern
    | some v => exact .after fun _ => leaf rfl rfl
  · exact .ite (numberPattern.bind fun _ v => node_one rfl rfl v) (.ite h.parenthesizedPattern (.ite
      (.after fun _ => h.maybeStarPattern.commaList.optional.bind fun _ parts => .after fun _ =>
        .part rfl rfl (by simpa using rest_items parts)) (.ite h.mappingPattern .fail)))
  · exact .fail

theorem pattern : Yields IsPart (Parser.pattern r) := by
  refine .after fun start => (h.one _).bind fun first isFirst =>
    (Yields.many (.after fun _ => h.one .closedPattern)).bind fun rest parts => ?_
  extract_lets next
  have last : ∀ t, t.IsPart → Yields IsPart (next t) :=
    fun t isPart => .after fun _ => .ite (.after fun _ => node_one rfl rfl isPart) (.pure isPart)
  exact .ite (.bind (.pure isFirst) last) (.bind (.part rfl rfl (by simpa [isFirst] using parts)) last)

theorem casePattern : Yields IsPart (Parser.casePattern r) := by
  refine .after fun start => h.maybeStarPattern.commaList.bind fun found parts => ?_
  split
  · split
    · exact .fail
    · exact .pure (parts _ (.head _))
  · exact .part rfl rfl (by simpa using parts)

/-! ## Simple statements -/

theorem rightSide : Yields IsPart (Parser.rightSide r) := .after fun _ => .ite h.yieldExpr (h.one _)

omit h in
theorem only {role : Role} {t : Tree} (fills : t.Fills role) : ∀ u ∈ [t], u.Fills role := by simpa using fills

omit h in
theorem given {role : Role} {found : Option Tree} (fills : ∀ t ∈ found, t.Fills role) :
    ∀ t ∈ found.toList, t.Fills role := fun t inside => fills t (Option.mem_toList.mp inside)

theorem assignmentFrom (fuel : Nat) {targets : List Tree} {value : Tree} (areParts : ∀ t ∈ targets, t.IsPart)
    (isPart : value.IsPart) :
    Yields (fun found => (∀ t ∈ found.1, t.IsPart) ∧ found.2.IsPart) (Parser.assignmentFrom r fuel targets value) := by
  induction fuel generalizing targets value with
  | zero => exact .fail
  | succ fuel ih =>
    refine .after fun _ => .ite ?_ (.pure ⟨fun t inside => areParts t (List.mem_reverse.mp inside), isPart⟩)
    split
    · exact .fail
    · rename_i isTarget
      exact h.rightSide.bind fun _ v => ih (List.forall_mem_cons.mpr ⟨isPart_target isPart isTarget, areParts⟩) v

theorem expressionStatement : Yields IsStatement (Parser.expressionStatement r) := by
  refine .after fun start => .after fun _ => h.rightSide.bind fun first isFirst => .after fun t => .ite ?assign
    (.ite ?annotated ?other)
  case assign =>
    exact .bind (fun o c => h.assignmentFrom (c.rest.length + 1) (by simp) isFirst o c) fun _ found => .after fun _ =>
      .node rfl rfl ⟨found.1, only found.2, trivial⟩
  case annotated =>
    split
    · exact .fail
    · rename_i isTarget
      refine .after fun _ => (h.one _).bind fun typed isTyped => .after fun _ => ?_
      extract_lets simple next
      have last : ∀ value, (∀ t ∈ value, t.IsPart) → Yields IsStatement (next value) := fun value parts => .after fun _ =>
        .node rfl rfl ⟨only (isPart_target isFirst isTarget), only isTyped, parts, trivial⟩
      exact .ite (h.rightSide.bind fun v isPart => .bind (.pure (only isPart)) last) (.bind (.pure (by simp)) last)
  case other =>
    extract_lets o
    clear_value o
    cases o with
    | none => exact .node rfl rfl ⟨only isFirst, trivial⟩
    | some o =>
      refine .ite ?_ .fail
      split
      · exact .fail
      · rename_i isTarget
        have value : Yields IsStatement (Parser.rightSide r >>= fun value =>
            Parser.node start (.augAssign o) [[_], [value]]) := h.rightSide.bind fun value isPart =>
          .node rfl rfl ⟨only (isPart_target isFirst isTarget), only isPart, trivial⟩
        exact .after fun _ => .ite (.after fun _ => value) value

omit h in
theorem importStatement : Yields IsStatement Parser.importStatement :=
  .after fun _ => .after fun _ => (Yields.commas (.after fun _ => .after fun _ => .after fun _ => leaf rfl rfl)).bind
    fun _ names => .node rfl rfl ⟨names, trivial⟩

omit h in
theorem fromStatement : Yields IsStatement Parser.fromStatement := by
  refine .after fun start => .after fun level => .after fun _ => .after fun module => .after fun _ => .after fun _ => ?_
  extract_lets item next
  have each : Yields IsPart item := .after fun _ => .after fun _ => .after fun _ => leaf rfl rfl
  have last : ∀ names, (∀ t ∈ names, t.IsPart) → Yields IsStatement (next names) :=
    fun names parts => .node rfl rfl ⟨parts, trivial⟩
  exact .after fun _ => .after fun _ => .ite (.after fun _ => .after fun _ => (leaf rfl rfl).bind fun t isPart =>
    .bind (.pure (only isPart)) last) (.ite
      (each.commaList.bind fun _ parts => .after fun _ => .bind (.pure parts) last)
      (each.commas.bind fun _ parts => .after fun _ => .after fun _ => .bind (.pure parts) last))

theorem returnStatement : Yields IsStatement (Parser.returnStatement r) :=
  .after fun _ => .after fun _ => (h.one _).optional.bind fun _ value => .node rfl rfl ⟨given value, trivial⟩

theorem raiseStatement : Yields IsStatement (Parser.raiseStatement r) := by
  refine .after fun start => .after fun _ => (h.one _).optional.bind fun found parts => ?_
  split
  · exact .node rfl rfl ⟨by simp, by simp, trivial⟩
  · have isPart := only (parts _ rfl)
    exact .after fun _ => .ite ((h.one _).bind fun _ cause => .node rfl rfl ⟨isPart, only cause, trivial⟩)
      (.node rfl rfl ⟨isPart, by simp, trivial⟩)

theorem deleteStatement : Yields IsStatement (Parser.deleteStatement r) := by
  refine .after fun start => .after fun _ => Yields.bind (.commaList (P := IsPart) ?_) fun _ parts => .after fun _ =>
    .after fun _ => .node rfl rfl ⟨parts, trivial⟩
  refine (h.one _).bind fun t isPart => ?_
  split
  · exact .pure (isPart_target isPart ‹_›)
  · exact .fail

theorem assertStatement : Yields IsStatement (Parser.assertStatement r) := by
  refine .after fun start => .after fun _ => (h.one _).bind fun test isTest => .after fun _ => ?_
  extract_lets next
  have last : ∀ message, (∀ t ∈ message, t.IsPart) → Yields IsStatement (next message) :=
    fun message parts => .node rfl rfl ⟨only isTest, parts, trivial⟩
  exact .ite ((h.one _).bind fun m isPart => .bind (.pure (only isPart)) last) (.bind (.pure (by simp)) last)

omit h in
theorem namesStatement (text : String) {make : List String → Kind} (isStatement : ∀ names, (make names).role = .statement)
    (plain : ∀ names, (make names).isPlain [] = true) : Yields IsStatement (Parser.namesStatement text make) :=
  .after fun _ => .after fun _ => .after fun names => .node (isStatement names) (plain names) trivial

omit h in
theorem wordStatement (text : String) {kind : Kind} (isStatement : kind.role = .statement)
    (plain : kind.isPlain [] = true) : Yields IsStatement (Parser.wordStatement text kind) :=
  .after fun _ => .after fun _ => .node isStatement plain trivial

theorem simpleStatement : Yields IsStatement (Parser.simpleStatement r) :=
  .after fun _ => .ite h.returnStatement (.ite importStatement (.ite fromStatement (.ite h.raiseStatement
    (.ite (wordStatement _ rfl rfl) (.ite (wordStatement _ rfl rfl) (.ite (wordStatement _ rfl rfl)
    (.ite h.deleteStatement (.ite h.assertStatement (.ite (namesStatement _ (fun _ => rfl) fun _ => rfl)
    (.ite (namesStatement _ (fun _ => rfl) fun _ => rfl) h.expressionStatement))))))))))

theorem simpleStatements : Yields (fun ts => ∀ t ∈ ts, t.IsStatement) (Parser.simpleStatements r) :=
  h.simpleStatement.bind fun _ first => (Yields.many (.after fun _ => h.simpleStatement)).bind fun _ rest =>
    .after fun _ => .after fun _ => .pure (List.forall_mem_cons.mpr ⟨first, rest⟩)

/-! ## Compound statements -/

omit h in
theorem flatten_all {ts : List (List Tree)} (each : ∀ slot ∈ ts, ∀ t ∈ slot, t.IsStatement) :
    ∀ t ∈ ts.flatten, t.IsStatement := fun t inside => by
  obtain ⟨slot, isSlot, inSlot⟩ := List.mem_flatten.mp inside
  exact each slot isSlot t inSlot

theorem block : Yields (fun ts => ∀ t ∈ ts, t.IsStatement) (Parser.block r) :=
  .after fun _ => .ite (.after fun _ => .after fun _ => .ite (.after fun _ => (h.blocks .statement rfl).many.bind
    fun _ each => .after fun _ => .pure (flatten_all each)) .fail) h.simpleStatements

theorem colonBlock : Yields (fun ts => ∀ t ∈ ts, t.IsStatement) (Parser.colonBlock r) :=
  .after fun _ => h.blocks .block rfl

theorem elseBlock : Yields (fun ts => ∀ t ∈ ts, t.IsStatement) (Parser.elseBlock r) :=
  .after fun _ => .ite h.colonBlock (.pure (by simp))

theorem ifRest (fuel : Nat) (start : Mark) : Yields IsStatement (Parser.ifRest r fuel start) := by
  induction fuel generalizing start with
  | zero => exact .fail
  | succ fuel ih =>
    exact (h.one _).bind fun _ test => h.colonBlock.bind fun _ body => .after fun _ => .ite
      (.after fun _ => .after fun _ => (ih _).bind fun _ other => .node rfl rfl ⟨only test, body, only other, trivial⟩)
      (h.elseBlock.bind fun _ other => .node rfl rfl ⟨only test, body, other, trivial⟩)

theorem ifStatement : Yields IsStatement (Parser.ifStatement r) :=
  .after fun start => .after fun _ o c => h.ifRest (c.rest.length + 1) start o c

theorem whileStatement : Yields IsStatement (Parser.whileStatement r) :=
  .after fun _ => .after fun _ => (h.one _).bind fun _ test => h.colonBlock.bind fun _ body =>
    h.elseBlock.bind fun _ other => .node rfl rfl ⟨only test, body, other, trivial⟩

theorem forStatement (start : Mark) (isAsync : Bool) : Yields IsStatement (Parser.forStatement r start isAsync) :=
  .after fun _ => h.starTargets.bind fun _ target => .after fun _ => (h.one _).bind fun _ iterable => .after fun _ =>
    .after fun _ => (h.blocks .block rfl).bind fun _ body => h.elseBlock.bind fun _ other =>
    .node rfl rfl ⟨only target, only iterable, body, other, trivial⟩

theorem withItem : Yields IsPart (Parser.withItem r) :=
  (h.one _).bind fun _ context => (Yields.optional (P := IsPart) (.after fun _ => h.starTarget.bind fun _ t =>
    .after fun _ => .after fun _ => .pure t)).bind fun _ target =>
    .pure (.part rfl rfl (by simpa [context] using target))

theorem withStatement (start : Mark) (isAsync : Bool) : Yields IsStatement (Parser.withStatement r start isAsync) := by
  refine .after fun _ => (Yields.optional (P := fun items : List Tree => ∀ t ∈ items, t.IsPart) (.after fun _ =>
    h.withItem.commaList.bind fun _ items => .after fun _ => .after fun _ => .after fun _ => .after fun _ =>
    .pure items)).bind fun bracketed parts => ?_
  split
  · exact (h.blocks .block rfl).bind fun _ body => .after fun _ => .node rfl rfl ⟨parts _ rfl, body, trivial⟩
  · exact h.withItem.commas.bind fun _ items => .after fun _ => .after fun _ => (h.blocks .block rfl).bind fun _ body =>
      .node rfl rfl ⟨items, body, trivial⟩

theorem handler (star : Bool) : Yields (fun t => t.Fills .handler) (Parser.handler r star) := by
  refine .after fun start => .after fun _ => ?_
  extract_lets typeNext starNext
  have last : ∀ type, (∀ t ∈ type, t.IsPart) → Yields (fun t => t.Fills .handler) (typeNext type) := by
    intro type parts
    have node : ∀ id, Yields (fun t => t.Fills .handler) (Parser.colonBlock r >>= fun body =>
        Parser.node start (.exceptHandler id) [type.toList, body]) :=
      fun id => h.colonBlock.bind fun _ body => .node rfl rfl ⟨given parts, body, trivial⟩
    exact .ite (.after node) (.after node)
  have starred : ∀ u, Yields (fun t => t.Fills .handler) (starNext u) := fun u => .after fun _ => .ite
    (.after fun _ => .bind (.pure nofun) last) ((h.one _).bind fun t isPart => .bind (.pure (by simpa using isPart)) last)
  exact .ite (.after fun _ => starred ()) (starred ())

theorem tryStatement : Yields IsStatement (Parser.tryStatement r) := by
  refine .after fun start => .after fun _ => h.colonBlock.bind fun body areBody => .after fun star =>
    (h.handler star).many.bind fun handlers areHandlers => ?_
  extract_lets otherNext
  have other : ∀ other, (∀ t ∈ other, t.IsStatement) → Yields IsStatement (otherNext other) := by
    refine fun other areOther => .after fun _ => ?_
    extract_lets finalNext
    have final : ∀ final, (∀ t ∈ final, t.IsStatement) → Yields IsStatement (finalNext final) := by
      intro final areFinal
      have node : Yields IsStatement (Parser.node start (.tryStmt star) [body, handlers, other, final]) :=
        .node rfl rfl ⟨areBody, areHandlers, areOther, areFinal, trivial⟩
      exact .after fun _ => .ite (.after fun _ => node) node
    exact .ite (h.colonBlock.bind final) (.bind (.pure (by simp)) final)
  exact .ite (.bind (.pure (by simp)) other) (h.elseBlock.bind other)

omit h in
theorem fills_function {m : Mark} {id : String} {isAsync : Bool} {comment : Option Text} {ps : Tree}
    {body decorators result : List Tree} (parameters : ps.FillsParameters true) (areBody : ∀ t ∈ body, t.IsStatement)
    (areParts : ∀ t ∈ decorators, t.IsPart) (isResult : ∀ t ∈ result, t.IsPart) :
    (Tree.node m (.functionDef id isAsync comment) [[ps], body, decorators, result]).IsStatement := by
  refine ⟨formed_node.mpr ⟨⟨?_, parameters.signature _ _ _, ?_⟩, ?_⟩, rfl, rfl⟩
  · simpa [Tree.slots, Tree.kind, Kind.holds] using ⟨parameters.role, fun t inside => (areBody t inside).role,
      fun t inside => (areParts t inside).role, fun t inside => (isResult t inside).role⟩
  · simpa [isSeated, Tree.slots, Tree.kind, admits] using ⟨fun t inside => (areBody t inside).tight,
      fun t inside => (areParts t inside).tight, fun t inside => (isResult t inside).tight⟩
  · simpa using ⟨parameters.formed, fun t inside => (areBody t inside).formed,
      fun t inside => (areParts t inside).formed, fun t inside => (isResult t inside).formed⟩

theorem functionStatement {decorators : List Tree} (areParts : ∀ t ∈ decorators, t.IsPart) (start : Mark)
    (isAsync : Bool) : Yields IsStatement (Parser.functionStatement r decorators start isAsync) := by
  refine .after fun _ => .after fun id => .after fun _ => (h.parameters _ _).bind fun ps parameters => .after fun _ =>
    .after fun _ => ?_
  extract_lets next
  have last : ∀ result, (∀ t ∈ result, t.IsPart) → Yields IsStatement (next result) := by
    refine fun result isResult => .after fun _ => .after fun comment => (h.blocks .block rfl).bind fun body areBody => ?_
    intro o c c' t run
    cases run
    exact fills_function parameters areBody areParts isResult
  exact .ite ((h.one _).bind fun t isPart => .bind (.pure (only isPart)) last) (.bind (.pure (by simp)) last)

theorem classStatement {decorators : List Tree} (areParts : ∀ t ∈ decorators, t.IsPart) :
    Yields IsStatement (Parser.classStatement r decorators) := by
  refine .after fun start => .after fun _ => .after fun id => .after fun _ => ?_
  extract_lets next
  have last : ∀ bases, ArgumentsFill bases → Yields IsStatement (next bases) := fun bases fill =>
    h.colonBlock.bind fun _ body => .node rfl rfl ⟨fill.positional, fill.keywords, body, areParts, trivial⟩
  exact .ite (h.arguments.bind fun _ fill => .after fun _ => .after fun _ => .bind (.pure fill) last)
    (.bind (.pure ⟨by simp, by simp, by simp⟩) last)

theorem matchCase : Yields (fun t => t.Fills .matchCase) (Parser.matchCase r) := by
  refine .after fun _ => h.casePattern.bind fun p isPattern => .after fun _ => ?_
  extract_lets next
  have last : ∀ condition, (∀ t ∈ condition, t.IsPart) → Yields (fun t => t.Fills .matchCase) (next condition) :=
    fun condition parts => h.colonBlock.bind fun _ body => .pure (.node rfl rfl ⟨only isPattern, parts, body, trivial⟩)
  exact .ite ((h.one _).bind fun t isPart => .bind (.pure (only isPart)) last) (.bind (.pure (by simp)) last)

theorem matchStatement : Yields IsStatement (Parser.matchStatement r) := by
  refine .after fun start => .after fun _ => .after fun inner => h.starNamed.commaList.bind fun found parts => ?_
  extract_lets next
  have last : ∀ subject, subject.IsPart → Yields IsStatement (next subject) := fun subject isPart => .after fun _ =>
    .after fun _ => .after fun _ => h.matchCase.bind fun _ first => h.matchCase.many.bind fun _ rest => .after fun _ =>
    .after fun _ => .node rfl rfl ⟨only isPart, List.forall_mem_cons.mpr ⟨first, rest⟩, trivial⟩
  split
  · exact .after fun _ => .bind (.pure (parts _ (.head _))) last
  · exact .bind (.part rfl rfl (by simpa using parts)) last

theorem asyncStatement {decorators : List Tree} (areParts : ∀ t ∈ decorators, t.IsPart) :
    Yields IsStatement (Parser.asyncStatement r decorators) :=
  .after fun start => .after fun _ => .after fun _ => .ite
    ((h.functionStatement areParts start true).bind fun _ t => .after fun _ => .pure t)
    (.after fun _ => .after fun _ => .after fun _ => .ite (h.forStatement start true) (h.withStatement start true))

theorem decorated : Yields IsStatement (Parser.decorated r) := by
  have decorators : Yields (fun ts => ∀ t ∈ ts, t.IsPart) (Parser.decorators r) :=
    .many (.after fun _ => (h.one _).bind fun _ t => .after fun _ => .pure t)
  exact decorators.bind fun _ areParts => .after fun start => .after fun _ => .ite
    (h.functionStatement areParts start false) (.after fun _ => .ite (h.classStatement areParts)
      (.after fun _ => .after fun _ => h.asyncStatement areParts))

theorem statement : Yields (fun ts => ∀ t ∈ ts, t.IsStatement) (Parser.statement r) := by
  have single : ∀ {p : Parser Tree}, Yields IsStatement p →
      Yields (fun ts => ∀ t ∈ ts, t.IsStatement) (p >>= fun t => Pure.pure [t]) :=
    fun each => each.bind fun _ t => .pure (only t)
  exact .after fun _ => .after fun start => .ite (single h.decorated)
    (.ite (single (h.functionStatement (by simp) start false)) (.ite (single (h.classStatement (by simp)))
    (.ite (single (h.asyncStatement (by simp))) (.ite (single h.ifStatement)
    (.ite (single (h.forStatement start false)) (.ite (single h.whileStatement) (.ite (single h.tryStatement)
    (.ite (single (h.withStatement start false)) (.ite (.orElse (single h.matchStatement) h.simpleStatements)
    h.simpleStatements)))))))))

/-! ## The whole grammar -/

theorem step : FilledRules (Parser.step r) where
  parts rule isExpression := by
    have single : ∀ {p : Parser Tree}, Yields IsPart p → Yields (fun ts => ∀ t ∈ ts, t.IsPart) (step.single p) :=
      fun each => each.bind fun _ t => .pure (only t)
    cases rule with
    | expression => exact single h.expression
    | disjunction => exact single h.disjunction
    | inversion => exact single h.inversion
    | bitOr => exact single h.bitOr
    | factor => exact single h.factor
    | primary => exact single h.primary
    | named => exact single h.named
    | starExpressions => exact single h.starExpressions
    | pattern => exact single h.pattern
    | closedPattern => exact single h.closedPattern
    | block | statement => cases isExpression
  blocks rule isBlock := by
    cases rule with
    | block => exact h.block
    | statement => exact h.statement
    | _ => cases isBlock

theorem file (ignores : List (Nat × Text)) : Yields (fun t => t.Fills .file) (Parser.file r ignores) :=
  h.statement.many.bind fun _ each => .after fun _ => .pure (.node rfl rfl ⟨flatten_all each, trivial⟩)

end FilledRules

theorem filled_rules (fuel : Nat) : FilledRules (rules fuel) := by
  induction fuel with
  | zero => exact ⟨fun _ _ => .fail, fun _ _ => .fail⟩
  | succ fuel ih => exact ih.step

end Parser

/-! ## Parsed files -/

namespace Tree

variable {m : Mark} {kind : Kind} {slots : List (List Tree)} {t u : Tree} {next : Nat}

theorem isTypedParameter_label (t : Tree) (next : Nat) : (t.label next).1.isTypedParameter = t.isTypedParameter := by
  obtain ⟨m, kind, slots⟩ := t
  cases kind with
  | arg =>
    cases slots with
    | nil => rfl
    | cons typed rest => cases typed <;> rfl
  | _ => rfl

theorem map_labelAll {β : Type} {f : Tree → β} (same : ∀ t k, f (t.label k).1 = f t) (next : Nat) (ts : List Tree) :
    (labelAll next ts).1.map f = ts.map f := by
  induction ts generalizing next with
  | nil => rfl
  | cons t rest ih => simp only [labelAll, List.map_cons, same, ih]

theorem map_children_label {β : Type} {f : Tree → β} (same : ∀ t k, f (t.label k).1 = f t) (t : Tree) (next : Nat) :
    (t.label next).1.children.map f = t.children.map f := by
  obtain ⟨m, kind, slots⟩ := t
  have each : ∀ next, (labelSlots next slots).1.flatten.map f = slots.flatten.map f := by
    induction slots with
    | nil => exact fun _ => rfl
    | cons slot rest ih =>
      exact fun next => by simp only [labelSlots, List.flatten_cons, List.map_append, map_labelAll same, ih]
  exact each (next + 1)

@[simp] theorem isLoose_label (t : Tree) (next : Nat) : (t.label next).1.isLoose = t.isLoose := by
  have children : (t.label next).1.children.any isTypedParameter = t.children.any isTypedParameter := by
    have same := congrArg (fun found => found.any id) (map_children_label isTypedParameter_label t next)
    simpa only [List.any_map, Function.id_comp] using same
  rw [isLoose, isLoose, isTypedParameter_label, label_kind, children]

@[simp] theorem admits_label (kind : Kind) (k : Nat) (t : Tree) (next : Nat) :
    admits kind k (t.label next).1 = admits kind k t := by
  unfold admits
  split <;> simp only [isLoose_label, label_kind]

theorem length_labelSlots (next : Nat) (slots : List (List Tree)) : (labelSlots next slots).1.length = slots.length := by
  induction slots generalizing next with
  | nil => rfl
  | cons slot rest ih => simp only [labelSlots, List.length_cons, ih]

/-- Whether a node has a signature is a matter of the parameters in its first slot. -/
theorem isSignature_label {ts body decorators result body' decorators' result' : List Tree}
    (signature : Kind.isSignature [ts, body, decorators, result] = true) (next : Nat) :
    Kind.isSignature [(labelAll next ts).1, body', decorators', result'] = true := by
  unfold Kind.isSignature at signature
  split at signature
  case h_1 isList =>
    cases isList
    have same : ∀ (slot : List Tree) (next : Nat), ((labelAll next slot).1.all fun t => t.kind.isParameter) =
        slot.all fun t => t.kind.isParameter := fun slot next => by
      have kinds := congrArg (fun found => found.all id)
        (map_labelAll (f := fun t => t.kind.isParameter) (fun t k => by rw [label_kind]) next slot)
      simpa only [List.all_map, Function.id_comp] using kinds
    simp only [labelAll, label, labelSlots, Kind.isSignature, List.all_append, same] at signature ⊢
    exact signature
  case h_2 => cases signature

theorem slot_of_mem_zipIdx {n : Tree} {slot : List Tree × Nat} (isSlot : slot ∈ n.slots.zipIdx) :
    n.slot slot.2 = slot.1 := by
  rw [Tree.slot, List.getD, List.mem_zipIdx_iff_getElem?.mp isSlot]
  rfl

theorem mem_zipIdx_of_slot {n : Tree} {k : Nat} (inSlot : u ∈ n.slot k) : (n.slot k, k) ∈ n.slots.zipIdx := by
  refine List.mem_zipIdx_iff_getElem?.mpr ?_
  rw [Tree.slot, List.getD] at inSlot ⊢
  cases isSlot : n.slots[k]? with
  | none =>
    rw [isSlot] at inSlot
    cases inSlot
  | some slot => rfl

theorem Fitting.label {n : Tree} (fitting : n.Fitting) (next : Nat) : (n.label next).1.Fitting := by
  obtain ⟨roles, parts, seated⟩ := fitting
  have below : ∀ slot ∈ (n.label next).1.slots.zipIdx, ∀ u ∈ slot.1,
      ∃ v ∈ n.slot slot.2, (n.slot slot.2, slot.2) ∈ n.slots.zipIdx ∧ ∃ j, u = (v.label j).1 := by
    intro slot isSlot u inSlot
    rw [← slot_of_mem_zipIdx isSlot] at inSlot
    obtain ⟨v, inSlot, found⟩ := exists_of_label_slot inSlot
    exact ⟨v, inSlot, mem_zipIdx_of_slot inSlot, found⟩
  rw [isSeated, Bool.and_eq_true] at seated
  refine ⟨fun slot isSlot u inSlot => ?_, ?_, ?_⟩
  · obtain ⟨v, inBefore, isBefore, j, rfl⟩ := below slot isSlot u inSlot
    rw [label_kind, label_kind]
    exact roles _ isBefore v inBefore
  · obtain ⟨m, kind, slots⟩ := n
    cases kind with
    | annAssign => exact (congrArg (· == 3) (length_labelSlots _ slots)).trans parts
    | functionDef =>
      obtain ⟨ts, body, decorators, result, rfl⟩ : ∃ ts body decorators result, slots = [ts, body, decorators, result] := by
        change Kind.isSignature slots = true at parts
        unfold Kind.isSignature at parts
        split at parts
        · exact ⟨_, _, _, _, rfl⟩
        · cases parts
      exact isSignature_label parts _
    | _ => rfl
  · rw [isSeated, Bool.and_eq_true]
    refine ⟨?_, List.all_eq_true.mpr fun slot isSlot => List.all_eq_true.mpr fun u inSlot => ?_⟩
    · obtain ⟨m, kind, slots⟩ := n
      cases kind with
      | arg => exact (congrArg (· == 1) (length_labelSlots _ slots)).trans seated.1
      | lambdaExpr =>
        cases slots with
        | nil => cases seated.1
        | cons ts rest => exact isSignature_label seated.1 _
      | _ => rfl
    · obtain ⟨v, inBefore, isBefore, j, rfl⟩ := below slot isSlot u inSlot
      rw [label_kind, admits_label]
      exact List.all_eq_true.mp (List.all_eq_true.mp seated.2 _ isBefore) v inBefore

theorem Formed.label (formed : t.Formed) (next : Nat) : (t.label next).1.Formed := by
  intro n inside
  obtain ⟨v, within, k, rfl⟩ := exists_of_label_node inside
  exact (formed v within).label k

theorem Formed.wellFormed (formed : t.Formed) : t.WellFormed := fun n inside k below u inSlot =>
  (formed n inside).roles (n.slot k, k) (List.mem_zipIdx_iff_getElem?.mpr (by simp [slot, below])) u inSlot

theorem Formed.annotates (formed : t.Formed) (tight : t.isLoose = false) : t.Annotates :=
  ⟨fun n inside => (formed n inside).parts, fun n inside => (formed n inside).seated, tight⟩

end Tree

theorem formed_of_parseModule {source : Text} {typeComments : Bool} {version : Nat} {tree : Tree}
    (parsed : parseModule source typeComments version = .ok tree) : tree.Formed ∧ tree.isLoose = false := by
  obtain ⟨inner, last, run, rfl⟩ := exists_of_parseModule parsed
  have fills := (Parser.filled_rules _).file _ _ _ _ _ run
  exact ⟨fills.formed.label 1, (Tree.isLoose_label inner 1).trans fills.tight⟩

/-- Every tree of a file stands in a slot for trees of its kind. -/
theorem wellFormed_of_parseModule {source : Text} {typeComments : Bool} {version : Nat} {tree : Tree}
    (parsed : parseModule source typeComments version = .ok tree) : tree.WellFormed :=
  (formed_of_parseModule parsed).1.wellFormed

/-- Functions and declarations of a file have all their parts, and its annotations stand where they may. -/
theorem annotates_of_parseModule {source : Text} {typeComments : Bool} {version : Nat} {tree : Tree}
    (parsed : parseModule source typeComments version = .ok tree) : tree.Annotates :=
  (formed_of_parseModule parsed).1.annotates (formed_of_parseModule parsed).2

end MacroExpand
