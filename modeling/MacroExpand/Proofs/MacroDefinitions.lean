import MacroExpand.Proofs.Nesting

/-!
# Which macros a scan finds

A function whose body opens with the directive, other than a method, and a lambda with such a body that a statement
gives a name to, are macros wherever they are visible: not inside another macro.  A scan finds exactly these, in the
order of the text.  It fails over names exactly if a visible lambda with the directive has no name or two visible macros
have the same one, provided that the functions that run for them can be printed.  If one cannot, that is reported, even
where a name is wrong as well.
-/

set_option autoImplicit false

namespace MacroExpand

namespace Scan

/-! ## Macros and where they are visible -/

def IsDirective (c : Context) (t : Tree) : Prop := ∃ marked, t.kind = .constant (.str c.directive) marked

def OpensFunction (c : Context) (t : Tree) (name : String) : Prop :=
  (∃ isAsync comment, t.kind = .functionDef name isAsync comment) ∧
    ∃ first rest, t.slot 1 = first :: rest ∧ first.kind = .exprStmt ∧ IsDirective c (first.part 0)

/-- A lambda whose body is a tuple of two or more elements, the first of which is the directive. -/
def OpensLambda (c : Context) (t : Tree) : Prop :=
  t.kind = .lambdaExpr ∧ ∃ usage first second rest, (t.part 1).kind = .tuple usage ∧
    (t.part 1).slot 0 = first :: second :: rest ∧ IsDirective c first

/-- A statement gives a name to its whole value: it assigns to one plain name, with or without an annotation. -/
def Names (statement value : Tree) (name : String) : Prop :=
  (∃ m comment target usage, statement = .node m (.assign comment) [[target], [value]] ∧
      target.kind = .name name usage) ∨
    ∃ m simple target annotation usage, statement = .node m (.annAssign simple) [[target], annotation, [value]] ∧
      target.kind = .name name usage

inductive IsMacro (c : Context) (parent t : Tree) (name : String) : Prop where
  | function (opens : OpensFunction c t name) (noMethod : ∀ owner, parent.kind ≠ .classDef owner)
  | lambda (opens : OpensLambda c t) (named : Names parent t name)

/-- The nodes of a tree that stand inside no macro, each below its parent. -/
inductive Visible (c : Context) (tree : Tree) : Tree → Tree → Prop where
  | root : Visible c tree Tree.absent tree
  | child {p t u : Tree} (visible : Visible c tree p t) (noMacro : ∀ name, ¬ IsMacro c p t name)
      (below : u ∈ t.children) : Visible c tree t u

/-- A visible lambda that opens with the directive has no name, or two visible macros have the same name. -/
def Misnamed (c : Context) (tree : Tree) : Prop :=
  (∃ p t, Visible c tree p t ∧ OpensLambda c t ∧ ∀ name, ¬ Names p t name) ∨
    ∃ p t q u name, Visible c tree p t ∧ Visible c tree q u ∧ t ≠ u ∧ IsMacro c p t name ∧ IsMacro c q u name

variable {c : Context} {p t : Tree} {name : String}

theorem isDirective_iff : c.isDirective t = true ↔ IsDirective c t := by
  unfold Context.isDirective IsDirective
  split
  · rename_i s marked isText
    rw [isText, beq_iff_eq]
    constructor
    · rintro rfl
      exact ⟨marked, rfl⟩
    · rintro ⟨marked', same⟩
      cases same
      rfl
  · rename_i other
    refine ⟨nofun, ?_⟩
    rintro ⟨marked, isText⟩
    exact absurd isText (other _ _)

theorem opens_iff {body : List Tree} : c.opens body = true ↔
    ∃ first rest, body = first :: rest ∧ first.kind = .exprStmt ∧ IsDirective c (first.part 0) := by
  cases body with
  | nil => exact ⟨nofun, fun ⟨_, _, same, _⟩ => nomatch same⟩
  | cons first rest =>
    rw [Context.opens, Bool.and_eq_true, decide_eq_true_eq, isDirective_iff]
    constructor
    · exact fun ⟨isStatement, directive⟩ => ⟨first, rest, rfl, isStatement, directive⟩
    · rintro ⟨_, _, same, isStatement, directive⟩
      cases same
      exact ⟨isStatement, directive⟩

theorem opensLambda_iff (isLambda : t.kind = .lambdaExpr) : c.opensLambda t = true ↔ OpensLambda c t := by
  unfold Context.opensLambda OpensLambda
  dsimp only
  split
  · rename_i usage isTuple
    rw [Bool.and_eq_true, decide_eq_true_eq]
    constructor
    · rintro ⟨several, directive⟩
      match same : (t.part 1).slot 0, several, directive with
      | first :: second :: rest, _, directive =>
        exact ⟨isLambda, usage, first, second, rest, isTuple, rfl, isDirective_iff.mp directive⟩
    · rintro ⟨-, -, first, second, rest, -, same, directive⟩
      rw [same]
      exact ⟨Nat.le_add_left 2 _, isDirective_iff.mpr directive⟩
  · rename_i other
    refine ⟨nofun, ?_⟩
    rintro ⟨-, usage, -, -, -, isTuple, -⟩
    exact absurd isTuple (other usage)

theorem binding_iff (apart : ∀ value ∈ p.children, value.mark.label = t.mark.label → value = t) :
    binding? p t = some name ↔ Names p t name := by
  constructor
  · intro bound
    unfold binding? at bound
    obtain ⟨m, kind, slots⟩ := p
    dsimp only [Tree.kind, Tree.slots] at bound
    split at bound
    · rename_i comment target id usage parts value
      split at bound
      · rename_i same
        cases bound
        obtain rfl := apart value (by simp [Tree.children, Tree.slots]) same
        exact .inl ⟨m, comment, _, usage, rfl, rfl⟩
      · cases bound
    · rename_i simple target id usage parts annotation value
      split at bound
      · rename_i same
        cases bound
        obtain rfl := apart value (by simp [Tree.children, Tree.slots]) same
        exact .inr ⟨m, simple, _, annotation, usage, rfl, rfl⟩
      · cases bound
    · cases bound
  · rintro (⟨m, comment, ⟨place, kind, parts⟩, usage, rfl, isName⟩ |
      ⟨m, simple, ⟨place, kind, parts⟩, annotation, usage, rfl, isName⟩) <;>
    · cases isName
      exact if_pos rfl

/-! ## What the search makes of a node -/

/-- What a node below a parent is to the search, and whether the search goes on below the node. -/
inductive Recognised (c : Context) (p t : Tree) : List Candidate × Bool → Prop where
  | plain (noFunction : ∀ name, ¬ OpensFunction c t name) (noLambda : ¬ OpensLambda c t) : Recognised c p t ([], true)
  | method {name owner : String} {line : Nat} (opens : OpensFunction c t name) (isClass : p.kind = .classDef owner) :
      Recognised c p t ([.method name line], true)
  | function {name : String} {typed : Bool} (opens : OpensFunction c t name)
      (noMethod : ∀ owner, p.kind ≠ .classDef owner) :
      Recognised c p t ([c.define name (runnable t) t typed], false)
  | unnamed {line column : Nat} (opens : OpensLambda c t) (unbound : binding? p t = none) :
      Recognised c p t ([.unnamed line column], false)
  | lambda {name : String} {typed : Bool} (opens : OpensLambda c t) (bound : binding? p t = some name) :
      Recognised c p t ([c.define name (ofLambda name t) p typed], false)

theorem recognised (c : Context) (p t : Tree) : Recognised c p t (c.recognise p t) := by
  unfold Context.recognise
  split
  · rename_i name isAsync comment isFunction
    have noLambda : ¬ OpensLambda c t := fun opens => by cases isFunction.symm.trans opens.1
    cases opens : c.opens (t.slot 1) with
    | false =>
      refine .plain (fun name function => ?_) noLambda
      rw [opens_iff.mpr function.2] at opens
      cases opens
    | true =>
      have function : OpensFunction c t name := ⟨⟨isAsync, comment, isFunction⟩, opens_iff.mp opens⟩
      rw [Bool.not_true, if_neg Bool.false_ne_true]
      split
      · rename_i owner isClass
        exact .method function isClass
      · rename_i noMethod
        exact .function function noMethod
  · rename_i isLambda
    have noFunction : ∀ name, ¬ OpensFunction c t name := by
      rintro name ⟨⟨isAsync, comment, isFunction⟩, -⟩
      cases isLambda.symm.trans isFunction
    cases opens : c.opensLambda t with
    | false =>
      refine .plain noFunction fun lambda => ?_
      rw [(opensLambda_iff isLambda).mpr lambda] at opens
      cases opens
    | true =>
      have lambda := (opensLambda_iff isLambda).mp opens
      rw [Bool.not_true, if_neg Bool.false_ne_true]
      split
      · rename_i unbound
        exact .unnamed lambda unbound
      · rename_i name bound
        exact .lambda lambda bound
  · rename_i noFunction noLambda
    refine .plain ?_ fun lambda => noLambda lambda.1
    rintro name ⟨⟨isAsync, comment, isFunction⟩, -⟩
    exact noFunction _ _ _ isFunction

def normalForm (name : String) (t : Tree) : Tree :=
  match t.kind with
  | .lambdaExpr => ofLambda name t
  | _ => runnable t

def definingStatement (p t : Tree) : Tree :=
  match t.kind with
  | .lambdaExpr => p
  | _ => t

section Macros

variable (apart : ∀ value ∈ p.children, value.mark.label = t.mark.label → value = t)
include apart

/-- The search makes a definition of a macro, if it can be printed, and does not go on below it. -/
theorem recognise_macro (isMacro : IsMacro c p t name) : ∃ typed,
    c.recognise p t = ([c.define name (normalForm name t) (definingStatement p t) typed], false) := by
  have result := recognised c p t
  generalize c.recognise p t = found at result ⊢
  cases isMacro with
  | function opens noMethod =>
    obtain ⟨isAsync, comment, isFunction⟩ := opens.1
    have same : ∀ name', OpensFunction c t name' → name' = name := by
      rintro name' ⟨⟨_, _, isFunction'⟩, -⟩
      cases isFunction.symm.trans isFunction'
      rfl
    have noLambda : ¬ OpensLambda c t := fun lambda => by cases isFunction.symm.trans lambda.1
    rw [normalForm, definingStatement, isFunction]
    cases result with
    | plain noFunction => exact absurd opens (noFunction name)
    | method _ isClass => exact absurd isClass (noMethod _)
    | function opens' =>
      obtain rfl := same _ opens'
      exact ⟨_, rfl⟩
    | unnamed lambda => exact absurd lambda noLambda
    | lambda lambda => exact absurd lambda noLambda
  | lambda opens named =>
    have bound := (binding_iff apart).mpr named
    have noFunction : ∀ name', ¬ OpensFunction c t name' := by
      rintro name' ⟨⟨_, _, isFunction⟩, -⟩
      cases opens.1.symm.trans isFunction
    rw [normalForm, definingStatement, opens.1]
    cases result with
    | plain _ noLambda => exact absurd opens noLambda
    | method function => exact absurd function (noFunction _)
    | function function => exact absurd function (noFunction _)
    | unnamed _ unbound => cases unbound.symm.trans bound
    | lambda _ bound' =>
      cases bound'.symm.trans bound
      exact ⟨_, rfl⟩

theorem recognise_unnamed (opens : OpensLambda c t) (unnamed : ∀ name, ¬ Names p t name) :
    ∃ line column, c.recognise p t = ([.unnamed line column], false) := by
  have result := recognised c p t
  generalize c.recognise p t = found at result ⊢
  have noFunction : ∀ name', ¬ OpensFunction c t name' := by
    rintro name' ⟨⟨_, _, isFunction⟩, -⟩
    cases opens.1.symm.trans isFunction
  cases result with
  | plain _ noLambda => exact absurd opens noLambda
  | method function => exact absurd function (noFunction _)
  | function function => exact absurd function (noFunction _)
  | unnamed => exact ⟨_, _, rfl⟩
  | lambda _ bound => exact absurd ((binding_iff apart).mp bound) (unnamed _)

/-- The search stops at macros and at lambdas without names only. -/
theorem stops_cases (stops : (c.recognise p t).2 = false) :
    (∃ name, IsMacro c p t name) ∨ OpensLambda c t ∧ ∀ name, ¬ Names p t name := by
  have result := recognised c p t
  generalize c.recognise p t = found at result stops
  cases result with
  | plain => cases stops
  | method => cases stops
  | function opens noMethod => exact .inl ⟨_, .function opens noMethod⟩
  | unnamed opens unbound =>
    refine .inr ⟨opens, fun name named => ?_⟩
    cases unbound.symm.trans ((binding_iff apart).mpr named)
  | lambda opens bound => exact .inl ⟨_, .lambda opens ((binding_iff apart).mp bound)⟩

/-- What the search finds at a node is a method, a macro or a lambda without a name. -/
theorem recognise_cases {candidate : Candidate} (found : candidate ∈ (c.recognise p t).1) :
    (∃ name line, candidate = .method name line) ∨
      (∃ line column, candidate = .unnamed line column ∧ OpensLambda c t ∧ ∀ name, ¬ Names p t name) ∨
      ∃ name typed, candidate = c.define name (normalForm name t) (definingStatement p t) typed ∧
        IsMacro c p t name := by
  have ofMacro : ∀ name, IsMacro c p t name → ∃ name typed,
      candidate = c.define name (normalForm name t) (definingStatement p t) typed ∧ IsMacro c p t name := by
    intro name isMacro
    obtain ⟨typed, defines⟩ := recognise_macro apart isMacro
    rw [defines] at found
    exact ⟨name, typed, List.mem_singleton.mp found, isMacro⟩
  have result := recognised c p t
  generalize c.recognise p t = recognition at result found
  cases result with
  | plain => cases found
  | method => exact .inl ⟨_, _, List.mem_singleton.mp found⟩
  | unnamed opens unbound =>
    refine .inr (.inl ⟨_, _, List.mem_singleton.mp found, opens, fun name named => ?_⟩)
    cases unbound.symm.trans ((binding_iff apart).mpr named)
  | function opens noMethod => exact .inr (.inr (ofMacro _ (.function opens noMethod)))
  | lambda opens bound => exact .inr (.inr (ofMacro _ (.lambda opens ((binding_iff apart).mp bound))))

end Macros

/-! ## Where the search goes -/

theorem Visible.place {tree : Tree} (visible : Visible c tree p t) :
    (p = Tree.absent ∧ t = tree) ∨ (p ∈ tree.nodes ∧ t ∈ p.children) := by
  induction visible with
  | root => exact .inl ⟨rfl, rfl⟩
  | child _ _ below ih =>
    rcases ih with ⟨-, rfl⟩ | ⟨inside, isChild⟩
    · exact .inr ⟨Tree.mem_nodes_self _, below⟩
    · exact .inr ⟨Tree.mem_nodes_trans inside (Tree.mem_nodes_of_child isChild (Tree.mem_nodes_self _)), below⟩

theorem Visible.apart {tree : Tree} (labelled : tree.Labelled) (visible : Visible c tree p t) :
    ∀ value ∈ p.children, value.mark.label = t.mark.label → value = t := by
  intro value isValue same
  rcases visible.place with ⟨rfl, -⟩ | ⟨inside, isChild⟩
  · cases isValue
  · have below : ∀ u ∈ p.children, u ∈ tree.nodes := fun u isChild =>
      Tree.mem_nodes_trans inside (Tree.mem_nodes_of_child isChild (Tree.mem_nodes_self u))
    exact labelled.eq_of_label (below value isValue) (below t isChild) same

theorem Reached.visible {tree : Tree} (labelled : tree.Labelled) (reached : Reached c Tree.absent tree p t) :
    Visible c tree p t := by
  induction reached with
  | root => exact .root
  | child _ enters below ih =>
    refine ih.child (fun name isMacro => ?_) below
    obtain ⟨typed, stops⟩ := recognise_macro (ih.apart labelled) isMacro
    rw [stops] at enters
    cases enters

/-- The search comes to every visible node, or to a lambda without a name. -/
theorem Visible.reached {tree : Tree} (labelled : tree.Labelled) (visible : Visible c tree p t) :
    Reached c Tree.absent tree p t ∨
      ∃ q u, Reached c Tree.absent tree q u ∧ OpensLambda c u ∧ ∀ name, ¬ Names q u name := by
  induction visible with
  | root => exact .inl .root
  | @child p t u visible noMacro below ih =>
    rcases ih with reached | stopped
    · cases enters : (c.recognise p t).2 with
      | true => exact .inl (reached.child enters below)
      | false =>
        rcases stops_cases (visible.apart labelled) enters with ⟨name, isMacro⟩ | ⟨opens, unnamed⟩
        · exact absurd isMacro (noMacro name)
        · exact .inr ⟨p, t, reached, opens, unnamed⟩
    · exact .inr stopped

theorem reached_iff {parent root : Tree} : Reached c parent root p t ↔
    (p = parent ∧ t = root) ∨
      (c.recognise parent root).2 = true ∧ ∃ u ∈ root.children, Reached c root u p t := by
  constructor
  · intro reached
    induction reached with
    | root => exact .inl ⟨rfl, rfl⟩
    | child _ enters below ih =>
      rcases ih with ⟨rfl, rfl⟩ | ⟨entersTop, u, isChild, inner⟩
      · exact .inr ⟨enters, _, below, .root⟩
      · exact .inr ⟨entersTop, u, isChild, inner.child enters below⟩
  · rintro (⟨rfl, rfl⟩ | ⟨enters, u, isChild, inner⟩)
    · exact .root
    · exact (Reached.root.child enters isChild).trans inner

/-- The candidates are found at the nodes that the search comes to, in the order of the text. -/
theorem exists_visits (c : Context) (parent t : Tree) : ∃ visits : List (Tree × Tree),
    (visits.map Prod.snd).Sublist t.nodes ∧ (∀ p u, (p, u) ∈ visits ↔ Reached c parent t p u) ∧
      c.candidates parent t = visits.flatMap fun v => (c.recognise v.1 v.2).1 := by
  induction t using Tree.inductionOn generalizing parent with
  | node m kind slots ih =>
    have all : ∀ ts : List Tree, (∀ u ∈ ts, u ∈ (Tree.node m kind slots).children) →
        ∃ visits : List (Tree × Tree), (visits.map Prod.snd).Sublist (ts.flatMap Tree.nodes) ∧
          (∀ p u, (p, u) ∈ visits ↔ ∃ w ∈ ts, Reached c (.node m kind slots) w p u) ∧
          ts.flatMap (c.candidates (.node m kind slots)) =
            visits.flatMap fun v => (c.recognise v.1 v.2).1 := by
      intro ts each
      induction ts with
      | nil => exact ⟨[], .refl _, by simp, rfl⟩
      | cons w rest hyp =>
        obtain ⟨slot, isSlot, inSlot⟩ := Tree.mem_children.mp (each w (.head _))
        obtain ⟨first, sub, reached, found⟩ := ih slot isSlot w inSlot (.node m kind slots)
        obtain ⟨later, sub', reached', found'⟩ := hyp fun u member => each u (.tail _ member)
        refine ⟨first ++ later, ?_, fun p u => ?_, ?_⟩
        · rw [List.map_append, List.flatMap_cons]
          exact sub.append sub'
        · rw [List.mem_append, reached, reached', List.exists_mem_cons_iff]
        · rw [List.flatMap_cons, List.flatMap_append, found, found']
    rw [candidates_eq]
    cases enters : (c.recognise parent (.node m kind slots)).2 with
    | true =>
      obtain ⟨below, sub, reached, found⟩ := all _ fun u member => member
      refine ⟨(parent, .node m kind slots) :: below, ?_, fun p u => ?_, ?_⟩
      · rw [Tree.nodes_eq, List.map_cons]
        exact sub.cons_cons _
      · rw [reached_iff, List.mem_cons, reached, Prod.mk.injEq]
        simp only [enters, true_and]
      · rw [if_pos rfl, found, List.flatMap_cons]
    | false =>
      refine ⟨[(parent, .node m kind slots)], ?_, fun p u => ?_, ?_⟩
      · rw [Tree.nodes_eq]
        exact List.singleton_sublist.mpr List.mem_cons_self
      · rw [reached_iff, List.mem_singleton, Prod.mk.injEq]
        simp only [enters, Bool.false_eq_true, false_and, or_false]
      · simp

/-! ## Registering what is found -/

/-- Registering fails at a definition whose name is taken, at a lambda without a name, or at a macro that cannot be
printed. -/
theorem Context.registerAll_error {candidates : List Candidate} {r r' : Registered} {e : ScanError}
    (failed : c.registerAll r candidates = (r', some e)) :
    ∃ before candidate after, candidates = before ++ candidate :: after ∧
      ((∃ d failure, candidate = .definition d ∧ e = .naming failure ∧
          d.name ∈ (r.definitions ++ before.filterMap Candidate.definition?).map Definition.name) ∨
        (∃ line column failure, candidate = .unnamed line column ∧ e = .naming failure) ∨
        ∃ error, candidate = .unprintable error ∧ e = .unprintable error) := by
  induction candidates generalizing r with
  | nil => cases failed
  | cons candidate rest ih =>
    rw [registerAll] at failed
    split at failed
    · rename_i r₁ first
      obtain ⟨before, found, after, rfl, cause⟩ := ih failed
      refine ⟨candidate :: before, found, after, rfl, ?_⟩
      have same : r₁.definitions ++ before.filterMap Candidate.definition? =
          r.definitions ++ (candidate :: before).filterMap Candidate.definition? := by
        rw [(register_ok first).1, List.append_assoc]
        cases isDefinition : candidate.definition? <;> simp [isDefinition]
      rwa [← same]
    · rename_i stopped
      refine ⟨[], candidate, rest, rfl, ?_⟩
      cases candidate with
      | definition d =>
        refine .inl ⟨d, ?_⟩
        simp only [register] at failed
        split at failed
        · rename_i earlier taken
          cases failed
          refine ⟨_, rfl, rfl, List.mem_map.mpr ⟨earlier, ?_, ?_⟩⟩
          · exact List.mem_append_left _ (List.mem_of_find?_eq_some taken)
          · simpa using List.find?_some taken
        · cases failed
      | method name line => cases failed
      | unnamed line column =>
        cases failed
        exact .inr (.inl ⟨line, column, _, rfl, rfl⟩)
      | unprintable error =>
        cases failed
        exact .inr (.inr ⟨error, rfl, rfl⟩)

/-- A definition as the normal form of a macro: one function with the same parameters, with the body of the function, or
with the elements behind the directive of the lambda as statements, the last of which is returned. -/
inductive Normalised (p t : Tree) (d : Definition) : Prop where
  | function (isFunction : ∃ isAsync comment, t.kind = .functionDef d.name isAsync comment) (statement : d.statement = t)
      (kind : d.tree.kind = t.kind) (parts : ∀ k ≠ 2, d.tree.slot k = t.slot k)
  | lambda {directive result : Tree} {effects : List Tree} (isLambda : t.kind = .lambdaExpr) (statement : d.statement = p)
      (elements : (t.part 1).slot 0 = directive :: (effects ++ [result]))
      (tree : d.tree = .node { t.mark with label := 0 } (.functionDef d.name false none)
        [t.slot 0, effects.map (fun u => .node { u.mark with label := 0 } .exprStmt [[u]]) ++
          [.node { result.mark with label := 0 } .returnStmt [[result]]], [], []])

/-- Definitions are those of the visible macros, in the order of the text and under names of their own. -/
def DefinesVisible (c : Context) (tree : Tree) (definitions : List Definition) : Prop :=
  (definitions.map Definition.name).Nodup ∧ ∃ macros : List (Tree × Tree), (macros.map Prod.snd).Sublist tree.nodes ∧
    (∀ p t, (p, t) ∈ macros ↔ Visible c tree p t ∧ ∃ name, IsMacro c p t name) ∧
    List.Forall₂ (fun place d => IsMacro c place.1 place.2 d.name ∧ Normalised place.1 place.2 d) macros definitions

/-- The functions that run for the visible macros can be printed. -/
def Printable (c : Context) (tree : Tree) : Prop :=
  ∀ p t name, Visible c tree p t → IsMacro c p t name → ∃ text, (normalForm name t).print = .ok text

theorem runnable_slot (t : Tree) {k : Nat} (other : k ≠ 2) : (runnable t).slot k = t.slot k := by
  unfold runnable
  split
  · match k, other with
    | 0, _ | 1, _ | 3, _ => rfl
    | k + 4, _ => rfl
  · rfl

theorem IsMacro.normalised {d : Definition} (isMacro : IsMacro c p t d.name) (tree : d.tree = normalForm d.name t)
    (statement : d.statement = definingStatement p t) : Normalised p t d := by
  cases isMacro with
  | function opens =>
    obtain ⟨isAsync, comment, isFunction⟩ := opens.1
    rw [normalForm, isFunction] at tree
    rw [definingStatement, isFunction] at statement
    refine .function ⟨isAsync, comment, isFunction⟩ statement ?_ fun k other => ?_
    · rw [tree]
      exact (runnable_mark t).2
    · rw [tree]
      exact runnable_slot t other
  | lambda opens =>
    obtain ⟨isLambda, usage, first, second, rest, -, same, -⟩ := opens
    rw [normalForm, isLambda] at tree
    rw [definingStatement, isLambda] at statement
    obtain ⟨effects, result, split⟩ : ∃ effects result, second :: rest = effects ++ [result] :=
      ⟨_, _, (List.dropLast_append_getLast (List.cons_ne_nil second rest)).symm⟩
    rw [split] at same
    refine .lambda isLambda statement same ?_
    rw [tree]
    simp [ofLambda, same]

theorem Normalised.withCalls {d : Definition} (normalised : Normalised p t d) (calls : List CallSite) :
    Normalised p t { d with calls } := by
  cases normalised with
  | function isFunction statement kind parts => exact .function isFunction statement kind parts
  | lambda isLambda statement elements tree => exact .lambda isLambda statement elements tree

theorem define_cases (c : Context) (name : String) (tree statement : Tree) (typed : Bool) :
    (∃ e, tree.print = .error e ∧ c.define name tree statement typed = .unprintable e) ∨
      ∃ d, c.define name tree statement typed = .definition d ∧ d.name = name ∧ d.tree = tree ∧
        d.statement = statement := by
  unfold Context.define
  cases printed : tree.print with
  | error e => exact .inl ⟨e, rfl, rfl⟩
  | ok source => exact .inr ⟨_, rfl, rfl, rfl, rfl⟩

theorem recognise_length (c : Context) (p t : Tree) : (c.recognise p t).1.length ≤ 1 := by
  have result := recognised c p t
  generalize c.recognise p t = found at result
  cases result <;> simp

/-- A definition that the search finds at a visible node is that of a macro. -/
theorem recognise_definition {d : Definition}
    (apart : ∀ value ∈ p.children, value.mark.label = t.mark.label → value = t)
    (found : .definition d ∈ (c.recognise p t).1) : IsMacro c p t d.name ∧ Normalised p t d := by
  rcases recognise_cases apart found with ⟨_, _, same⟩ | ⟨_, _, same, -⟩ | ⟨name, typed, same, isMacro⟩
  · cases same
  · cases same
  · rcases define_cases c name (normalForm name t) (definingStatement p t) typed with
      ⟨e, -, defines⟩ | ⟨d', defines, rfl, tree, statement⟩
    · cases same.trans defines
    · cases same.trans defines
      exact ⟨isMacro, isMacro.normalised tree statement⟩

theorem forall₂_filterMap {α β : Type} {f : α → Option β} {R : α → β → Prop} (l : List α)
    (each : ∀ a ∈ l, ∀ b, f a = some b → R a b) :
    List.Forall₂ R (l.filter fun a => (f a).isSome) (l.filterMap f) := by
  induction l with
  | nil => exact .nil
  | cons a rest ih =>
    have later := ih fun a member => each a (.tail _ member)
    cases kept : f a with
    | none => simpa [kept] using later
    | some b => simpa [kept] using ⟨each a (.head _) b kept, later⟩

theorem Names.value_unique {statement u : Tree} {name' : String} (first : Names statement t name)
    (second : Names statement u name') : t = u := by
  rcases first with ⟨m, comment, target, usage, rfl, -⟩ | ⟨m, simple, target, annotation, usage, rfl, -⟩ <;>
    rcases second with ⟨_, _, _, _, same, -⟩ | ⟨_, _, _, _, _, same, -⟩ <;> cases same <;> rfl

theorem Normalised.unique {q u : Tree} {d : Definition} {name' : String} (first : Normalised p t d)
    (second : Normalised q u d) (isMacro : IsMacro c p t name) (isMacro' : IsMacro c q u name') : t = u := by
  have named : ∀ {p t name}, IsMacro c p t name → t.kind = .lambdaExpr → Names p t name := by
    intro p t name isMacro isLambda
    cases isMacro with
    | function opens =>
      obtain ⟨_, _, isFunction⟩ := opens.1
      cases isLambda.symm.trans isFunction
    | lambda _ named => exact named
  have noFunction : ∀ {p t u name}, Names p t name → p = u → ∀ name isAsync comment,
      u.kind ≠ .functionDef name isAsync comment := by
    rintro p t u name (⟨_, _, _, _, rfl, -⟩ | ⟨_, _, _, _, _, rfl, -⟩) rfl name isAsync comment <;> exact nofun
  cases first with
  | function isFunction statement =>
    cases second with
    | function _ statement' => exact statement.symm.trans statement'
    | lambda isLambda' statement' =>
      obtain ⟨_, _, isFunction⟩ := isFunction
      exact absurd isFunction (noFunction (named isMacro' isLambda') (statement'.symm.trans statement) _ _ _)
  | lambda isLambda statement =>
    cases second with
    | function isFunction statement' =>
      obtain ⟨_, _, isFunction⟩ := isFunction
      exact absurd isFunction (noFunction (named isMacro isLambda) (statement.symm.trans statement') _ _ _)
    | lambda isLambda' statement' =>
      have same : p = q := statement.symm.trans statement'
      exact (named isMacro isLambda).value_unique (same ▸ named isMacro' isLambda')

def madeAt (c : Context) (v : Tree × Tree) : Option Definition :=
  (c.recognise v.1 v.2).1.head?.bind Candidate.definition?

theorem mem_of_madeAt {v : Tree × Tree} {d : Definition} (made : madeAt c v = some d) :
    .definition d ∈ (c.recognise v.1 v.2).1 := by
  obtain ⟨candidate, first, same⟩ := Option.bind_eq_some_iff.mp made
  have isDefinition : candidate = .definition d := by
    cases candidate <;> cases same
    rfl
  exact isDefinition ▸ List.mem_of_mem_head? first

section Search

variable {tree : Tree} (labelled : tree.Labelled)
include labelled

theorem exists_visit {candidate : Candidate} (found : candidate ∈ c.candidates Tree.absent tree) :
    ∃ p t, Visible c tree p t ∧ candidate ∈ (c.recognise p t).1 := by
  obtain ⟨p, t, reached, here⟩ := Context.exists_recognised found
  exact ⟨p, t, reached.visible labelled, here⟩

/-- Two definitions of one name are those of two visible macros. -/
theorem candidates_pairwise : (c.candidates Tree.absent tree).Pairwise fun earlier later =>
    ∀ d d', earlier = .definition d → later = .definition d' → d.name = d'.name → Misnamed c tree := by
  obtain ⟨visits, sub, reached, found⟩ := exists_visits c Tree.absent tree
  have distinct : visits.Pairwise fun v w => v.2 ≠ w.2 :=
    List.pairwise_map.mp ((List.Nodup.of_map _ labelled.distinct).sublist sub)
  rw [found]
  refine List.pairwise_flatMap.mpr ⟨fun v _ => ?_, distinct.imp_of_mem ?_⟩
  · match same : (c.recognise v.1 v.2).1, recognise_length c v.1 v.2 with
    | [], _ => exact .nil
    | [candidate], _ => exact List.pairwise_singleton _ _
  · rintro ⟨p, t⟩ ⟨q, u⟩ inVisits inVisits' apart earlier here later there d d' rfl rfl same
    have visible := ((reached p t).mp inVisits).visible labelled
    have visible' := ((reached q u).mp inVisits').visible labelled
    have isMacro := (recognise_definition (visible.apart labelled) here).1
    have isMacro' := (recognise_definition (visible'.apart labelled) there).1
    exact .inr ⟨p, t, q, u, d.name, visible, visible', apart, isMacro, same ▸ isMacro'⟩

theorem registerAll_failed {r : Registered} {e : ScanError}
    (failed : c.registerAll {} (c.candidates Tree.absent tree) = (r, some e)) :
    ((∃ failure, e = .naming failure) ∧ Misnamed c tree) ∨
      ((∃ error, e = .unprintable error) ∧ ¬ Printable c tree) := by
  obtain ⟨before, candidate, after, split, cause⟩ := Context.registerAll_error failed
  have member : candidate ∈ c.candidates Tree.absent tree := by simp [split]
  rcases cause with ⟨d, failure, rfl, rfl, taken⟩ | ⟨line, column, failure, rfl, rfl⟩ | ⟨error, rfl, rfl⟩
  · refine .inl ⟨⟨failure, rfl⟩, ?_⟩
    rw [List.nil_append] at taken
    obtain ⟨d', inBefore, same⟩ := List.mem_map.mp taken
    have ordered := candidates_pairwise (c := c) labelled
    rw [split] at ordered
    exact (List.pairwise_append.mp ordered).2.2 _ (Candidate.mem_definitions.mp inBefore) _ (.head _) d' d rfl rfl same
  · obtain ⟨p, t, visible, here⟩ := exists_visit labelled member
    refine .inl ⟨⟨failure, rfl⟩, .inl ⟨p, t, visible, ?_⟩⟩
    rcases recognise_cases (visible.apart labelled) here with
      ⟨_, _, same⟩ | ⟨_, _, -, unnamed⟩ | ⟨name, typed, same, -⟩
    · cases same
    · exact unnamed
    · rcases define_cases c name (normalForm name t) (definingStatement p t) typed with
        ⟨e, -, defines⟩ | ⟨d, defines, -⟩ <;> cases same.trans defines
  · obtain ⟨p, t, visible, here⟩ := exists_visit labelled member
    refine .inr ⟨⟨error, rfl⟩, fun printable => ?_⟩
    rcases recognise_cases (visible.apart labelled) here with
      ⟨_, _, same⟩ | ⟨_, _, same, -⟩ | ⟨name, typed, same, isMacro⟩
    · cases same
    · cases same
    · obtain ⟨text, printed⟩ := printable p t name visible isMacro
      rcases define_cases c name (normalForm name t) (definingStatement p t) typed with
        ⟨e, unprintable, -⟩ | ⟨d, defines, -⟩
      · cases unprintable.symm.trans printed
      · cases same.trans defines

/-- What the search comes to when registering succeeds: all that is visible, and definitions of all macros. -/
theorem registerAll_complete {r : Registered}
    (registered : c.registerAll {} (c.candidates Tree.absent tree) = (r, none)) (visible : Visible c tree p t) :
    Reached c Tree.absent tree p t ∧ (OpensLambda c t → ∃ name, Names p t name) ∧
      ∀ name, IsMacro c p t name → ∃ d, (c.recognise p t).1 = [.definition d] ∧ d ∈ r.definitions ∧ d.name = name := by
  have named : ∀ q u, Reached c Tree.absent tree q u → OpensLambda c u → ∃ name, Names q u name := by
    intro q u reached opens
    by_contra unnamed
    have noName : ∀ name, ¬ Names q u name := fun name isName => unnamed ⟨name, isName⟩
    obtain ⟨line, column, reports⟩ := recognise_unnamed ((reached.visible labelled).apart labelled) opens noName
    have here : Candidate.unnamed line column ∈ (c.recognise q u).1 := by
      rw [reports]
      exact List.mem_singleton_self _
    have found := reached.candidates_subset (recognise_subset here)
    rcases Context.registerAll_kinds registered _ found with ⟨_, _, same⟩ | ⟨_, same⟩ <;> cases same
  have reached : Reached c Tree.absent tree p t := by
    rcases visible.reached labelled with reached | ⟨q, u, reached, opens, unnamed⟩
    · exact reached
    · obtain ⟨name, isName⟩ := named q u reached opens
      exact absurd isName (unnamed name)
  refine ⟨reached, named p t reached, fun name isMacro => ?_⟩
  obtain ⟨typed, recognises⟩ := recognise_macro (visible.apart labelled) isMacro
  have here : c.define name (normalForm name t) (definingStatement p t) typed ∈ (c.recognise p t).1 := by
    rw [recognises]
    exact List.mem_singleton_self _
  have found := reached.candidates_subset (recognise_subset here)
  rcases define_cases c name (normalForm name t) (definingStatement p t) typed with
    ⟨e, -, defines⟩ | ⟨d, defines, same, -⟩
  · rw [defines] at found
    rcases Context.registerAll_kinds registered _ found with ⟨_, _, same⟩ | ⟨_, same⟩ <;> cases same
  · rw [defines] at found recognises
    refine ⟨d, by rw [recognises], ?_, same⟩
    rw [(Context.registerAll_ok registered List.nodup_nil).1]
    exact List.mem_append_right _ (Candidate.mem_definitions.mpr found)

/-- Registering succeeds on trees without misnamed macros only. -/
theorem registerAll_named {r : Registered}
    (registered : c.registerAll {} (c.candidates Tree.absent tree) = (r, none)) : ¬ Misnamed c tree := by
  rintro (⟨p, t, visible, opens, unnamed⟩ | ⟨p, t, q, u, name, visible, visible', apart, isMacro, isMacro'⟩)
  · obtain ⟨name, isName⟩ := (registerAll_complete labelled registered visible).2.1 opens
    exact unnamed name isName
  · obtain ⟨d, made, member, same⟩ := (registerAll_complete labelled registered visible).2.2 name isMacro
    obtain ⟨d', made', member', same'⟩ := (registerAll_complete labelled registered visible').2.2 name isMacro'
    have distinct := (Context.registerAll_ok registered List.nodup_nil).2
    obtain rfl := List.inj_on_of_nodup_map distinct member member' (same.trans same'.symm)
    have normalised := (recognise_definition (visible.apart labelled) (made ▸ List.mem_singleton_self _)).2
    have normalised' := (recognise_definition (visible'.apart labelled) (made' ▸ List.mem_singleton_self _)).2
    exact apart (normalised.unique normalised' isMacro isMacro')

theorem registerAll_visible {r : Registered}
    (registered : c.registerAll {} (c.candidates Tree.absent tree) = (r, none)) :
    DefinesVisible c tree r.definitions := by
  obtain ⟨all, distinct⟩ := Context.registerAll_ok registered List.nodup_nil
  obtain ⟨visits, sub, reached, found⟩ := exists_visits c Tree.absent tree
  have each : r.definitions = visits.filterMap (madeAt c) := by
    rw [all, List.nil_append, found, List.filterMap_flatMap, List.filterMap_eq_flatMap_toList]
    refine List.flatMap_congr fun v _ => ?_
    unfold madeAt
    match (c.recognise v.1 v.2).1, recognise_length c v.1 v.2 with
    | [], _ => rfl
    | [candidate], _ => cases candidate <;> rfl
  refine ⟨distinct, visits.filter fun v => (madeAt c v).isSome, ?_, fun p t => ?_, ?_⟩
  · exact (List.filter_sublist.map _).trans sub
  · rw [List.mem_filter, reached]
    constructor
    · rintro ⟨reached, isSome⟩
      obtain ⟨d, made⟩ := Option.isSome_iff_exists.mp isSome
      have visible := reached.visible labelled
      exact ⟨visible, d.name, (recognise_definition (visible.apart labelled) (mem_of_madeAt made)).1⟩
    · rintro ⟨visible, name, isMacro⟩
      obtain ⟨reached, -, macros⟩ := registerAll_complete labelled registered visible
      obtain ⟨d, made, -⟩ := macros name isMacro
      exact ⟨reached, by rw [madeAt, made]; rfl⟩
  · rw [each]
    refine forall₂_filterMap visits fun v inVisits d made => ?_
    have visible := ((reached v.1 v.2).mp inVisits).visible labelled
    exact recognise_definition (visible.apart labelled) (mem_of_madeAt made)

end Search

/-- A scan succeeds when registering does, with the definitions that are registered and their calls. -/
theorem scanTree_cases (c : Context) (tree : Tree) :
    (∃ r e, c.registerAll {} (c.candidates Tree.absent tree) = (r, some e) ∧
        (scanTree c.path c.directive c.lines tree).2 = .error e) ∨
      ∃ r scan, c.registerAll {} (c.candidates Tree.absent tree) = (r, none) ∧
        (scanTree c.path c.directive c.lines tree).2 = .ok scan ∧ ∃ calls : Definition → List CallSite,
          scan.definitions = r.definitions.map fun d => { d with calls := calls d } := by
  unfold scanTree
  dsimp only
  split
  · rename_i r e failed
    exact .inl ⟨r, e, failed, rfl⟩
  · rename_i r registered
    refine .inr ⟨r, ?_⟩
    split
    · rename_i none
      exact ⟨{}, registered, rfl, fun _ => [], by rw [List.isEmpty_iff.mp none]; rfl⟩
    · exact ⟨_, registered, rfl, _, rfl⟩

theorem DefinesVisible.withCalls {tree : Tree} {definitions : List Definition}
    (defines : DefinesVisible c tree definitions) (calls : Definition → List CallSite) :
    DefinesVisible c tree (definitions.map fun d => { d with calls := calls d }) := by
  obtain ⟨distinct, macros, sub, all, each⟩ := defines
  refine ⟨by rwa [List.map_map], macros, sub, all, List.forall₂_map_right_iff.mpr ?_⟩
  exact each.imp fun place d ⟨isMacro, normalised⟩ => ⟨isMacro, normalised.withCalls (calls d)⟩

end Scan

/-- A scan finds exactly the visible macros, and if they can be printed, it fails exactly over names. -/
theorem macros_recognised {path directive : Text} {lines : List Text} {tree : Tree} (labelled : tree.Labelled) :
    let c : Scan.Context := ⟨path, directive, lines⟩
    let scanned := (scanTree path directive lines tree).2
    (Scan.Printable c tree →
        ((∃ failure, scanned = .error (.naming failure)) ↔ Scan.Misnamed c tree) ∧
          ((∃ scan, scanned = .ok scan) ↔ ¬ Scan.Misnamed c tree)) ∧
      (∀ failure, scanned = .error (.naming failure) → Scan.Misnamed c tree) ∧
      (∀ error, scanned = .error (.unprintable error) → ¬ Scan.Printable c tree) ∧
      ∀ scan, scanned = .ok scan → ¬ Scan.Misnamed c tree ∧ Scan.DefinesVisible c tree scan.definitions := by
  intro c scanned
  rcases Scan.scanTree_cases c tree with ⟨r, e, failed, same⟩ | ⟨r, scan, registered, same, calls, definitions⟩
  · have isError : scanned = .error e := same
    rw [isError]
    rcases Scan.registerAll_failed labelled failed with ⟨⟨failure, rfl⟩, misnamed⟩ | ⟨⟨error, rfl⟩, unprintable⟩
    · refine ⟨fun _ => ⟨iff_of_true ⟨failure, rfl⟩ misnamed, iff_of_false ?_ fun named => named misnamed⟩,
        fun _ _ => misnamed, ?_, ?_⟩
      · rintro ⟨_, ⟨⟩⟩
      all_goals rintro _ ⟨⟩
    · refine ⟨fun printable => absurd printable unprintable, ?_, fun _ _ => unprintable, ?_⟩ <;> rintro _ ⟨⟩
  · have isOk : scanned = .ok scan := same
    rw [isOk]
    have named := Scan.registerAll_named labelled registered
    refine ⟨fun _ => ⟨iff_of_false ?_ named, iff_of_true ⟨scan, rfl⟩ named⟩, ?_, ?_, ?_⟩
    · rintro ⟨_, ⟨⟩⟩
    all_goals rintro _ ⟨⟩
    exact ⟨named, definitions ▸ (Scan.registerAll_visible labelled registered).withCalls calls⟩

/-- A method with the directive, which holds a macro, and a macro that holds what would be another one of its name. -/
def nestedMacros : Text := chars ("class K:\n def f():\n  'use macro'\n  n: K = lambda: ('use macro', 1)\n" ++
  "def m():\n 'use macro'\n n = lambda: ('use macro', 2)\n")

theorem nestedMacros_recognised :
    ∃ tree scan, parseModule nestedMacros = .ok tree ∧ tree.Labelled ∧
      (scanTree [] (chars "use macro") nestedMacros.lines tree).2 = .ok scan ∧
      scan.definitions.map Definition.name = ["n", "m"] ∧
      ¬ Scan.Misnamed ⟨[], chars "use macro", nestedMacros.lines⟩ tree ∧
      Scan.DefinesVisible ⟨[], chars "use macro", nestedMacros.lines⟩ tree scan.definitions := by
  obtain ⟨tree, parsed, scan, scanned, names⟩ : ∃ tree, parseModule nestedMacros = .ok tree ∧
      ∃ scan, (scanTree [] (chars "use macro") nestedMacros.lines tree).2 = .ok scan ∧
        scan.definitions.map Definition.name = ["n", "m"] := by
    rw [show nestedMacros = _ from chars_append _ _]
    decide +kernel
  have labelled := labelled_of_parseModule parsed
  exact ⟨tree, scan, parsed, labelled, scanned, names, (macros_recognised labelled).2.2.2 scan scanned⟩

/-- A file without lines, for trees that were not parsed. -/
def bareFile : Scan.Context := ⟨[], chars "use macro", []⟩

def numberMacro (value : Nat) : Tree :=
  .node {} (.functionDef "m" false none)
    [[.node {} .arguments [[], [], [], [], [], [], []]],
      [.node {} .exprStmt [[.node {} (.constant (.str (chars "use macro")) false) []]],
        .node {} .returnStmt [[.node {} (.constant (.int (.ofNat value)) false) []]]], [], []]

/-- Two macros of one name, the first of which returns a number with too many digits. -/
def twins : Tree := ((Tree.node {} (.module []) [[numberMacro (10 ^ 4300), numberMacro 1]]).label 1).1

theorem numberMacro_print :
    (Scan.normalForm "m" ((numberMacro (10 ^ 4300)).label 2).1).print = .error .longNumber := by
  decide +kernel

/-- The number is reported and not the name. -/
theorem twins_unprintable :
    twins.Labelled ∧ Scan.Misnamed bareFile twins ∧
      (scanTree bareFile.path bareFile.directive bareFile.lines twins).2 = .error (.unprintable .longNumber) := by
  have opens : ∀ value next, Scan.OpensFunction bareFile ((numberMacro value).label next).1 "m" :=
    fun value next => ⟨⟨false, none, rfl⟩, _, _, rfl, rfl, false, rfl⟩
  have noMacro : ∀ name, ¬ Scan.IsMacro bareFile Tree.absent twins name := by
    rintro name (⟨⟨⟨_, _, isFunction⟩, -⟩, -⟩ | ⟨⟨isLambda, -⟩, -⟩)
    · cases isFunction
    · cases isLambda
  have macroAt : ∀ value next, ((numberMacro value).label next).1 ∈ twins.children →
      Scan.Visible bareFile twins twins ((numberMacro value).label next).1 ∧
        Scan.IsMacro bareFile twins ((numberMacro value).label next).1 "m" :=
    fun value next below => ⟨.child .root noMacro below, .function (opens value next) nofun⟩
  have children : twins.children = [((numberMacro (10 ^ 4300)).label 2).1] ++ [((numberMacro 1).label 8).1] := by
    rfl
  obtain ⟨visible, isMacro⟩ := macroAt (10 ^ 4300) 2 (by rw [children]; exact .head _)
  obtain ⟨visible', isMacro'⟩ := macroAt 1 8 (by rw [children]; exact .tail _ (.head _))
  have labelled : twins.Labelled := Tree.labelled_label (by decide) _
  refine ⟨labelled, .inr ⟨_, _, _, _, "m", visible, visible', ?_, isMacro, isMacro'⟩, ?_⟩
  · intro same
    cases congrArg (fun t => t.mark.label) same
  · -- the first macro is met before the name of the second is looked at
    obtain ⟨typed, recognises⟩ := Scan.recognise_macro (visible.apart labelled) isMacro
    have first : bareFile.candidates Tree.absent twins =
        .unprintable .longNumber :: ([((numberMacro 1).label 8).1].flatMap (bareFile.candidates twins)) := by
      have enters : bareFile.recognise Tree.absent twins = ([], true) := rfl
      rw [Scan.candidates_eq, enters, if_pos rfl, List.nil_append, children, List.flatMap_append,
        List.flatMap_singleton, Scan.candidates_eq, recognises, Scan.Context.define, numberMacro_print]
      rfl
    rcases Scan.scanTree_cases bareFile twins with ⟨r, e, failed, same⟩ | ⟨r, scan, registered, -⟩
    · rw [first] at failed
      cases failed
      exact same
    · rw [first] at registered
      cases registered

end MacroExpand
