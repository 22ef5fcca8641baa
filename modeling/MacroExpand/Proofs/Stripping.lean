import MacroExpand.Proofs.Outcome
import MacroExpand.Syntax.Annotations
import MacroExpand.Syntax.Scope

/-!
# Names that stripping keeps

A name belongs to a function if the function binds it or declares it with an annotation.  Stripping leaves the function
the names that it binds elsewhere (`Scope.lasting`): a declaration without a value is the only one of its name to some
functions, and with it the name moves to a function around (`stripped_names_resolve`).
-/

set_option autoImplicit false

namespace MacroExpand

/-! ## Names bound by more than annotations -/

def Kind.isParameter : Kind → Bool
  | .arg .. => true
  | _ => false

/-- Whether a node is the definition of a function. -/
def Kind.isFunction : Kind → Bool
  | .functionDef .. => true
  | _ => false

def Kind.isSignature : List (List Tree) → Bool
  | [[.node _ .arguments [posOnly, args, variadic, keywordOnly, _, keywordVariadic, _]], _, _, _] =>
    (posOnly ++ args ++ variadic ++ keywordOnly ++ keywordVariadic).all fun t => t.kind.isParameter
  | _ => false

def Kind.hasParts (kind : Kind) (slots : List (List Tree)) : Bool :=
  match kind with
  | .annAssign _ => slots.length == 3
  | .functionDef .. => isSignature slots
  | _ => true

/-- Declarations and functions in a tree have the parts that they have in any text. -/
def Tree.HasParts (t : Tree) : Prop := ∀ n ∈ t.nodes, n.kind.hasParts n.slots = true

instance (t : Tree) : Decidable t.HasParts := inferInstanceAs (Decidable (∀ n ∈ t.nodes, n.kind.hasParts n.slots = true))

namespace Scope

mutual

/-- The names that a tree binds in the scope it stands in, but for those in annotations of functions and in
declarations without a value. -/
def lasting (nested : Bool) : Tree → List String
  | .node _ (.annAssign _) [target, _, value] =>
    if value.isEmpty then [] else lastingAll nested target ++ lastingAll nested value
  | .node _ (.functionDef name _ _) [[.node _ .arguments [_, _, _, _, keywordDefaults, _, defaults]], _, decorators, _] =>
    name :: (lastingAll nested keywordDefaults ++ lastingAll nested defaults ++ lastingAll nested decorators)
  | .node m kind slots =>
    ownName nested (.node m kind slots) ++ lastingSlots (nested || isComprehension kind) kind 0 slots

def lastingSlots (nested : Bool) (kind : Kind) (k : Nat) : List (List Tree) → List String
  | [] => []
  | slot :: rest =>
    (if isForeign kind k then [] else lastingAll nested slot) ++ lastingSlots nested kind (k + 1) rest

def lastingAll (nested : Bool) : List Tree → List String
  | [] => []
  | t :: rest => lasting nested t ++ lastingAll nested rest

end

theorem lastingAll_eq (nested : Bool) (ts : List Tree) : lastingAll nested ts = ts.flatMap (lasting nested) := by
  induction ts with
  | nil => rfl
  | cons t rest ih => rw [lastingAll, ih, List.flatMap_cons]

theorem boundAll_eq (nested : Bool) (ts : List Tree) : boundAll nested ts = ts.flatMap (bound nested) := by
  induction ts with
  | nil => rfl
  | cons t rest ih => rw [boundAll, ih, List.flatMap_cons]

end Scope

/-! ## What stripping makes of a node -/

namespace Tree

theorem stripAnnotationsAll_eq (ts : List Tree) : stripAnnotationsAll ts = ts.map stripAnnotations := by
  induction ts with
  | nil => rfl
  | cons t rest ih => rw [stripAnnotationsAll, ih, List.map_cons]

theorem stripAnnotationsSlots_eq (slots : List (List Tree)) :
    stripAnnotationsSlots slots = slots.map (List.map stripAnnotations) := by
  induction slots with
  | nil => rfl
  | cons slot rest ih => rw [stripAnnotationsSlots, stripAnnotationsAll_eq, ih, List.map_cons]

variable {m : Mark} {kind : Kind} {slots : List (List Tree)}

theorem stripAnnotations_node (m : Mark) (kind : Kind) (slots : List (List Tree)) :
    (Tree.node m kind slots).stripAnnotations = stripNode m kind (slots.map (List.map stripAnnotations)) := by
  rw [stripAnnotations, stripAnnotationsSlots_eq]

def plain : Kind → Bool
  | .annAssign _ | .functionDef .. => false
  | _ => true

theorem stripNode_plain (isPlain : plain kind = true) : stripNode m kind slots = .node m kind (fillBody kind slots) := by
  cases kind <;> first | rfl | cases isPlain

theorem strip_plain (isPlain : plain kind = true) : (Tree.node m kind slots).stripAnnotations =
    .node m kind (fillBody kind (slots.map (List.map stripAnnotations))) := by
  rw [stripAnnotations_node, stripNode_plain isPlain]

theorem strip_declaration {simple : Bool} {target annotation value : List Tree} :
    (Tree.node m (.annAssign simple) [target, annotation, value]).stripAnnotations =
      if value.isEmpty then passAt m
      else .node { m with label := 0, origin := none } (.assign none)
        [target.map stripAnnotations, value.map stripAnnotations] := by
  rw [stripAnnotations_node, List.map_cons, List.map_cons, List.map_cons, List.map_nil, stripNode, List.isEmpty_map]

theorem strip_function {name : String} {isAsync : Bool} {comment : Option Text}
    {parameters body decorators result : List Tree} :
    (Tree.node m (.functionDef name isAsync comment) [parameters, body, decorators, result]).stripAnnotations =
      .node m (.functionDef name isAsync none) [parameters.map fun t => stripSignature t.stripAnnotations,
        if body.isEmpty then [passAt {}] else body.map stripAnnotations, decorators.map stripAnnotations, []] := by
  rw [stripAnnotations_node, List.map_cons, List.map_cons, List.map_cons, List.map_cons, List.map_nil, stripNode]
  simp [fillBody, bodySlot?, List.modify, List.modifyTailIdx, List.modifyTailIdx.go]

/-- Declarations are plain after stripping, and other nodes keep their kind but for the type comment of a function. -/
theorem kind_strip (t : Tree) (isPlain : plain t.kind = true) : t.stripAnnotations.kind = t.kind := by
  obtain ⟨m, kind, slots⟩ := t
  change plain kind = true at isPlain
  rw [strip_plain isPlain]
  rfl

theorem role_of_annotated {t : Tree} (isAnnotated : plain t.kind = false) : t.kind.role = .statement := by
  cases isKind : t.kind <;> rw [isKind] at isAnnotated <;> first | rfl | cases isAnnotated

theorem role_strip {t : Tree} (isAnnotated : plain t.kind = false) : t.stripAnnotations.kind.role = .statement := by
  obtain ⟨m, kind, slots⟩ := t
  change plain kind = false at isAnnotated
  rw [stripAnnotations_node]
  unfold stripNode
  split
  · split <;> rfl
  · rfl
  · exact role_of_annotated isAnnotated

theorem part_map_strip (m : Mark) (kind : Kind) (slots : List (List Tree)) (k : Nat) :
    (Tree.node m kind (slots.map (List.map stripAnnotations))).part k =
      ((Tree.node m kind slots).part k).stripAnnotations := by
  simp only [part, part?, slot, Tree.slots, List.getD_eq_getElem?_getD, List.getElem?_map]
  cases slots[k]? with
  | none => rfl
  | some slot => cases slot <;> rfl

theorem slot_map_strip (m : Mark) (kind : Kind) (slots : List (List Tree)) (k : Nat) :
    (Tree.node m kind (slots.map (List.map stripAnnotations))).slot k =
      ((Tree.node m kind slots).slot k).map stripAnnotations := by
  simp only [slot, Tree.slots, List.getD_eq_getElem?_getD, List.getElem?_map]
  cases slots[k]? <;> rfl

theorem HasParts.of_mem {t n : Tree} (parts : t.HasParts) (member : n ∈ t.nodes) : n.HasParts :=
  fun u inside => parts u (mem_nodes_trans member inside)

theorem HasParts.child {t u : Tree} (parts : t.HasParts) (child : u ∈ t.children) : u.HasParts :=
  parts.of_mem (mem_nodes_of_child child (mem_nodes_self u))

/-- What holds of a tree whenever it holds of all nodes below it holds of every tree with the usual parts. -/
theorem HasParts.inductionOn {motive : Tree → Prop} (node : ∀ m kind slots, (Tree.node m kind slots).HasParts →
    (∀ slot ∈ slots, ∀ t ∈ slot, ∀ u ∈ t.nodes, motive u) → motive (.node m kind slots)) {t : Tree} (parts : t.HasParts) :
    motive t := by
  suffices every : ∀ u ∈ t.nodes, motive u from every t (mem_nodes_self t)
  induction t using Tree.inductionOn with
  | node m kind slots ih =>
    have below : ∀ slot ∈ slots, ∀ t ∈ slot, ∀ u ∈ t.nodes, motive u :=
      fun slot isSlot t inSlot => ih slot isSlot t inSlot (parts.child (mem_children.mpr ⟨slot, isSlot, inSlot⟩))
    intro u inside
    rcases mem_nodes.mp inside with rfl | ⟨t, isChild, inside⟩
    · exact node m kind slots parts below
    · obtain ⟨slot, isSlot, inSlot⟩ := mem_children.mp isChild
      exact below slot isSlot t inSlot u inside

theorem HasParts.declaration {simple : Bool} (parts : (Tree.node m (.annAssign simple) slots).HasParts) :
    ∃ target annotation value, slots = [target, annotation, value] := by
  have here : Kind.hasParts (.annAssign simple) slots = true := parts _ (mem_nodes_self _)
  exact List.length_eq_three.mp (by simpa [Kind.hasParts] using here)

theorem HasParts.function {name : String} {isAsync : Bool} {comment : Option Text}
    (parts : (Tree.node m (.functionDef name isAsync comment) slots).HasParts) :
    ∃ m' posOnly args variadic keywordOnly keywordDefaults keywordVariadic defaults body decorators result,
      slots = [[.node m' .arguments [posOnly, args, variadic, keywordOnly, keywordDefaults, keywordVariadic, defaults]],
        body, decorators, result] ∧
      ∀ p ∈ posOnly ++ args ++ variadic ++ keywordOnly ++ keywordVariadic, p.kind.isParameter = true := by
  have here : Kind.isSignature slots = true := parts _ (mem_nodes_self _)
  unfold Kind.isSignature at here
  split at here
  · exact ⟨_, _, _, _, _, _, _, _, _, _, _, rfl, fun p member => List.all_eq_true.mp here p member⟩
  · cases here

end Tree

namespace Scope

variable {nested : Bool} {m : Mark} {kind : Kind} {slots : List (List Tree)}

theorem isUnboundTarget_plain (isPlain : Tree.plain kind = true) (k : Nat) (slot : List Tree)
    (rest : List (List Tree)) : isUnboundTarget kind k slot rest = false := by
  cases kind <;> first | rfl | cases isPlain

theorem lasting_plain (isPlain : Tree.plain kind = true) : lasting nested (.node m kind slots) =
    ownName nested (.node m kind slots) ++ lastingSlots (nested || isComprehension kind) kind 0 slots := by
  rw [lasting]
  · rintro _ _ _ _ rfl
    cases isPlain
  · rintro _ _ _ _ _ _ _ _ _ _ _ _ _ _ rfl
    cases isPlain

/-- A `pass` in an empty body binds nothing. -/
theorem boundSlots_fill (isPlain : Tree.plain kind = true) (k : Nat) :
    boundSlots nested kind k (Tree.fillBody kind slots) = boundSlots nested kind k slots := by
  have fill : ∀ i k, boundSlots nested kind k
      (slots.modify i fun body => if body.isEmpty then [Tree.passAt {}] else body) = boundSlots nested kind k slots := by
    intro i
    induction slots generalizing i with
    | nil => cases i <;> exact fun _ => rfl
    | cons slot rest ih =>
      intro k
      cases i with
      | zero =>
        rw [List.modify_zero_cons, boundSlots, boundSlots, isUnboundTarget_plain isPlain,
          isUnboundTarget_plain isPlain]
        cases slot <;> rfl
      | succ i =>
        rw [List.modify_succ_cons, boundSlots, boundSlots, isUnboundTarget_plain isPlain,
          isUnboundTarget_plain isPlain, ih]
  unfold Tree.fillBody
  split
  · exact fill _ k
  · rfl

theorem importedName_statement {whole : Bool} {t : Tree} (isStatement : t.kind.role = .statement) :
    importedName whole t = [] := by
  unfold importedName
  split
  case h_3 => rfl
  all_goals
    rename_i isAlias
    rw [isAlias] at isStatement
    cases isStatement

theorem importedName_strip (whole : Bool) (t : Tree) : importedName whole t.stripAnnotations = importedName whole t := by
  cases isPlain : Tree.plain t.kind with
  | true =>
    unfold importedName
    rw [Tree.kind_strip t isPlain]
  | false => rw [importedName_statement (Tree.role_strip isPlain), importedName_statement (Tree.role_of_annotated isPlain)]

theorem ownName_namedExpr_congr {slots' : List (List Tree)}
    (same : ((Tree.node m .namedExpr slots').part 0).kind = ((Tree.node m .namedExpr slots).part 0).kind) :
    ownName nested (.node m .namedExpr slots') = ownName nested (.node m .namedExpr slots) := by
  unfold ownName
  dsimp only [Tree.kind] at same ⊢
  rw [same]

theorem ownName_namedExpr_statement (isStatement : ((Tree.node m .namedExpr slots).part 0).kind.role = .statement) :
    ownName nested (.node m .namedExpr slots) = [] := by
  unfold ownName
  dsimp only [Tree.kind] at isStatement ⊢
  split
  case h_1 isName =>
    rw [isName] at isStatement
    cases isStatement
  case h_2 => rfl

theorem ownName_strip : ownName nested (.node m kind (Tree.fillBody kind (slots.map (List.map Tree.stripAnnotations)))) =
    ownName nested (.node m kind slots) := by
  cases kind
  case namedExpr =>
    change ownName nested (.node m .namedExpr (slots.map (List.map Tree.stripAnnotations))) = _
    cases isPlain : Tree.plain ((Tree.node m .namedExpr slots).part 0).kind with
    | true => exact ownName_namedExpr_congr (by rw [Tree.part_map_strip, Tree.kind_strip _ isPlain])
    | false =>
      rw [ownName_namedExpr_statement (by rw [Tree.part_map_strip]; exact Tree.role_strip isPlain),
        ownName_namedExpr_statement (Tree.role_of_annotated isPlain)]
  case importStmt =>
    change ((Tree.node m .importStmt (slots.map (List.map Tree.stripAnnotations))).slot 0).flatMap _ = _
    rw [Tree.slot_map_strip, List.flatMap_map]
    exact List.flatMap_congr fun t _ => importedName_strip true t
  case importFrom source level =>
    change ((Tree.node m (.importFrom source level) (slots.map (List.map Tree.stripAnnotations))).slot 0).flatMap _ = _
    rw [Tree.slot_map_strip, List.flatMap_map]
    exact List.flatMap_congr fun t _ => importedName_strip false t
  case name id usage => cases usage <;> rfl
  case exceptHandler name => cases name <;> rfl
  case matchMapping name => cases name <;> rfl
  case matchStar name => cases name <;> rfl
  case matchAs name => cases name <;> rfl
  all_goals rfl

/-- A parameter without its annotation binds nothing around the function. -/
theorem boundAll_parameters {ps : List Tree} (isParameter : ∀ p ∈ ps, p.kind.isParameter = true) (keepComment : Bool) :
    boundAll nested ((ps.map Tree.stripAnnotations).map (Tree.stripParameter keepComment)) = [] := by
  rw [boundAll_eq, List.map_map, List.flatMap_map, List.flatMap_eq_nil_iff]
  intro p member
  obtain ⟨m, kind, slots⟩ := p
  cases kind <;> first | rfl | cases isParameter _ member

/-- Stripping leaves a node the names that it binds elsewhere than in annotations, if it does so to all nodes below. -/
theorem bound_strip_node (parts : (Tree.node m kind slots).HasParts)
    (below : ∀ slot ∈ slots, ∀ t ∈ slot, ∀ u ∈ t.nodes, ∀ nested, bound nested u.stripAnnotations = lasting nested u) :
    bound nested (Tree.node m kind slots).stripAnnotations = lasting nested (.node m kind slots) := by
  have all : ∀ ts : List Tree, (∀ t ∈ ts, ∀ nested, bound nested t.stripAnnotations = lasting nested t) →
      ∀ nested, boundAll nested (ts.map Tree.stripAnnotations) = lastingAll nested ts := by
    intro ts each nested
    rw [boundAll_eq, lastingAll_eq, List.flatMap_map]
    exact List.flatMap_congr fun t member => each t member nested
  have parts' : ∀ slot ∈ slots, ∀ nested, boundAll nested (slot.map Tree.stripAnnotations) = lastingAll nested slot :=
    fun slot isSlot => all slot fun t inSlot => below slot isSlot t inSlot t (Tree.mem_nodes_self t)
  by_cases isPlain : Tree.plain kind = true
  · rw [Tree.strip_plain isPlain, bound, boundSlots_fill isPlain, ownName_strip, lasting_plain isPlain]
    congr 1
    clear below parts
    generalize (nested || isComprehension kind) = nested
    generalize 0 = k
    induction slots generalizing k with
    | nil => rfl
    | cons slot rest ih =>
      rw [List.map_cons, boundSlots, lastingSlots, isUnboundTarget_plain isPlain, Bool.or_false, parts' slot (.head _),
        ih fun slot member => parts' slot (.tail _ member)]
  · cases kind <;> first | exact absurd rfl isPlain | skip
    case annAssign simple =>
      obtain ⟨target, annotation, value, rfl⟩ := parts.declaration
      rw [Tree.strip_declaration, lasting]
      split
      · rfl
      · simp [bound, ownName, Tree.kind, boundSlots, isForeign, isUnboundTarget, isComprehension, parts']
    case functionDef name isAsync comment =>
      obtain ⟨m', posOnly, args, variadic, keywordOnly, keywordDefaults, keywordVariadic, defaults, body, decorators,
        result, rfl, isParameter⟩ := parts.function
      have each : ∀ ps ∈ [posOnly, args, variadic, keywordOnly, keywordVariadic], ∀ nested keepComment,
          boundAll nested ((ps.map Tree.stripAnnotations).map (Tree.stripParameter keepComment)) = [] := by
        intro ps isList nested keepComment
        refine boundAll_parameters (fun p member => isParameter p ?_) keepComment
        simp only [List.mem_append]
        simp only [List.mem_cons, List.not_mem_nil, or_false] at isList
        rcases isList with rfl | rfl | rfl | rfl | rfl <;> simp [member]
      have presets : ∀ ts ∈ [keywordDefaults, defaults], ∀ nested,
          boundAll nested (ts.map Tree.stripAnnotations) = lastingAll nested ts := by
        intro ts isList
        refine all ts fun t member => below _ (.head _) _ (.head _) t ?_
        refine Tree.mem_nodes_of_child (Tree.mem_children.mpr ⟨ts, ?_, member⟩) (Tree.mem_nodes_self t)
        rcases List.mem_pair.mp isList with rfl | rfl <;> simp
      have signature : bound nested (Tree.stripSignature (Tree.stripAnnotations (.node m' .arguments
          [posOnly, args, variadic, keywordOnly, keywordDefaults, keywordVariadic, defaults]))) =
          lastingAll nested keywordDefaults ++ lastingAll nested defaults := by
        rw [Tree.strip_plain rfl]
        simp only [Tree.fillBody, Tree.bodySlot?, List.map_cons, List.map_nil, Tree.stripSignature, Tree.stripParameters,
          bound, ownName, Tree.kind, boundSlots, isForeign, isUnboundTarget, isComprehension, Bool.or_self, Bool.or_false,
          Bool.false_eq_true, if_false, List.nil_append, List.append_nil]
        rw [each posOnly (by simp), each args (by simp), each variadic (by simp), each keywordOnly (by simp),
          each keywordVariadic (by simp), presets keywordDefaults (by simp), presets defaults (by simp)]
        rfl
      have decorated := parts' decorators (by simp) nested
      rw [Tree.strip_function, lasting, bound]
      simp [ownName, Tree.kind, boundSlots, boundAll, isForeign, isUnboundTarget, isComprehension, signature, decorated]

/-- Stripping leaves a tree the names that it binds elsewhere than in annotations. -/
theorem bound_strip {t : Tree} (parts : t.HasParts) (nested : Bool) :
    bound nested t.stripAnnotations = lasting nested t := by
  refine @Tree.HasParts.inductionOn (fun t => ∀ nested, bound nested t.stripAnnotations = lasting nested t) ?_ t parts nested
  exact fun m kind slots parts below nested => bound_strip_node parts below

theorem mem_bound_node {x : String} (parts : (Tree.node m kind slots).HasParts)
    (below : ∀ slot ∈ slots, ∀ t ∈ slot, ∀ u ∈ t.nodes, ∀ nested, x ∈ lasting nested u → x ∈ bound nested u)
    (isName : x ∈ lasting nested (.node m kind slots)) : x ∈ bound nested (.node m kind slots) := by
  have all : ∀ ts : List Tree, (∀ t ∈ ts, ∀ nested, x ∈ lasting nested t → x ∈ bound nested t) →
      ∀ nested, x ∈ lastingAll nested ts → x ∈ boundAll nested ts := by
    intro ts each nested isName
    rw [lastingAll_eq] at isName
    rw [boundAll_eq]
    obtain ⟨t, inside, isName⟩ := List.mem_flatMap.mp isName
    exact List.mem_flatMap.mpr ⟨t, inside, each t inside nested isName⟩
  have parts' : ∀ slot ∈ slots, ∀ nested, x ∈ lastingAll nested slot → x ∈ boundAll nested slot :=
    fun slot isSlot => all slot fun t inSlot => below slot isSlot t inSlot t (Tree.mem_nodes_self t)
  by_cases isPlain : Tree.plain kind = true
  · rw [lasting_plain isPlain, List.mem_append] at isName
    rw [bound, List.mem_append]
    refine isName.imp_right ?_
    clear below parts isName
    generalize (nested || isComprehension kind) = nested
    generalize 0 = k
    induction slots generalizing k with
    | nil => exact id
    | cons slot rest ih =>
      rw [lastingSlots, boundSlots, isUnboundTarget_plain isPlain, Bool.or_false, List.mem_append, List.mem_append]
      refine Or.imp ?_ (ih (fun slot member => parts' slot (.tail _ member)) (k + 1))
      split
      · exact id
      · exact parts' slot (.head _) nested
  · cases kind <;> first | exact absurd rfl isPlain | skip
    case annAssign simple =>
      obtain ⟨target, annotation, value, rfl⟩ := parts.declaration
      rw [lasting] at isName
      split at isName
      · cases isName
      case isFalse some =>
        have isBound : isUnboundTarget (.annAssign simple) 0 target [ annotation, value] = false := by
          unfold isUnboundTarget
          split
          case h_1 same =>
            cases same
            exact absurd rfl some
          case h_2 => rfl
        rw [bound, boundSlots, boundSlots, boundSlots, isBound]
        rcases List.mem_append.mp isName with inTarget | inValue
        · have inTarget := parts' target (by simp) nested inTarget
          simp [isForeign, isComprehension, inTarget]
        · have inValue := parts' value (by simp) nested inValue
          simp [isForeign, isUnboundTarget, isComprehension, inValue]
    case functionDef name isAsync comment =>
      obtain ⟨m', posOnly, args, variadic, keywordOnly, keywordDefaults, keywordVariadic, defaults, body, decorators,
        result, rfl, -⟩ := parts.function
      have presets : ∀ ts ∈ [keywordDefaults, defaults], x ∈ lastingAll nested ts → x ∈ boundAll nested ts := by
        intro ts isList
        refine all ts (fun t member => below _ (.head _) _ (.head _) t ?_) nested
        refine Tree.mem_nodes_of_child (Tree.mem_children.mpr ⟨ts, ?_, member⟩) (Tree.mem_nodes_self t)
        rcases List.mem_pair.mp isList with rfl | rfl <;> simp
      have first := presets keywordDefaults (by simp)
      have second := presets defaults (by simp)
      have third := parts' decorators (by simp) nested
      simp only [lasting, List.mem_cons, List.mem_append] at isName
      simp only [bound, ownName, Tree.kind, boundSlots, boundAll, isForeign, isUnboundTarget, isComprehension, List.mem_append,
        List.mem_cons, List.not_mem_nil, or_false, Bool.or_false, Bool.false_eq_true, if_false]
      rcases isName with named | (inKeywords | inDefaults) | inDecorators
      · exact .inl named
      · simp [first inKeywords]
      · simp [second inDefaults]
      · simp [third inDecorators]

theorem mem_bound_of_lasting {x : String} {t : Tree} (parts : t.HasParts) (isName : x ∈ lasting nested t) :
    x ∈ bound nested t := by
  refine @Tree.HasParts.inductionOn (fun t => ∀ nested, x ∈ lasting nested t → x ∈ bound nested t) ?_ t parts nested isName
  exact fun m kind slots parts below nested => mem_bound_node parts below

end Scope

/-! ## Declarations of names -/

namespace Tree

variable {m : Mark} {kind : Kind} {slots : List (List Tree)} {t : Tree}

theorem WellFormed.inert (formed : t.WellFormed) (role : t.kind.role = .part) : t.Inert := by
  intro n inside
  by_cases top : n = t
  · rwa [top]
  · by_contra statement
    obtain ⟨k, block⟩ := formed.holds_block inside top statement
    exact Kind.role_ne_part block role

theorem WellFormed.inert_slot (formed : (Tree.node m kind slots).WellFormed) {k : Nat} {slot : List Tree}
    (isSlot : slots[k]? = some slot) (holds : kind.holds k = .part) {u : Tree} (inSlot : u ∈ slot) : u.Inert := by
  obtain ⟨inside, rfl⟩ := List.getElem?_eq_some_iff.mp isSlot
  have isChild : u ∈ (Tree.node m kind slots).children := mem_children.mpr ⟨_, List.getElem_mem inside, inSlot⟩
  have role := formed _ (mem_nodes_self _) k inside u (by simpa [slot, Tree.slots, inside] using inSlot)
  exact (formed.of_mem (mem_nodes_of_child isChild (mem_nodes_self u))).inert (role.trans holds)

theorem plain_of_part (role : kind.role = .part) : plain kind = true ∧ bodySlot? kind = none := by
  cases kind <;> first | exact ⟨rfl, rfl⟩ | cases role

theorem Inert.strip (inert : t.Inert) : t.stripAnnotations.Inert := by
  induction t using Tree.inductionOn with
  | node m kind slots ih =>
    obtain ⟨role, below⟩ := inert_node.mp inert
    obtain ⟨isPlain, noBody⟩ := plain_of_part role
    rw [strip_plain isPlain, fillBody, noBody]
    refine inert_node.mpr ⟨role, fun slot isSlot t inSlot => ?_⟩
    obtain ⟨slot, isSlot', rfl⟩ := List.mem_map.mp isSlot
    obtain ⟨t, inSlot', rfl⟩ := List.mem_map.mp inSlot
    exact ih slot isSlot' t inSlot' (below slot isSlot' t inSlot')

theorem Inert.parameter (inert : t.Inert) (keepComment : Bool) : (stripParameter keepComment t).Inert := by
  unfold stripParameter
  split
  · exact inert_node.mpr ⟨rfl, by simp⟩
  · exact inert

theorem inert_parameters (below : ∀ slot ∈ slots, ∀ t ∈ slot, t.Inert) :
    ∀ slot ∈ stripParameters slots, ∀ t ∈ slot, t.Inert := by
  have mapped : ∀ keepComment, ∀ {ps : List Tree}, (∀ t ∈ ps, t.Inert) →
      ∀ t ∈ ps.map (stripParameter keepComment), t.Inert := by
    intro keepComment ps each t inList
    obtain ⟨p, inside, rfl⟩ := List.mem_map.mp inList
    exact (each p inside).parameter keepComment
  unfold stripParameters
  split
  · simp only [List.forall_mem_cons, List.not_mem_nil, IsEmpty.forall_iff, implies_true, and_true] at below ⊢
    obtain ⟨posOnly, args, variadic, keywordOnly, keywordDefaults, keywordVariadic, defaults⟩ := below
    exact ⟨mapped false posOnly, mapped false args, mapped true variadic, mapped false keywordOnly, keywordDefaults,
      mapped true keywordVariadic, defaults⟩
  · exact below

theorem Inert.signature (inert : t.Inert) : (stripSignature t).Inert := by
  unfold stripSignature
  split
  · obtain ⟨-, below⟩ := inert_node.mp inert
    exact inert_node.mpr ⟨rfl, inert_parameters below⟩
  · exact inert

end Tree

namespace Scope

/-- Names that nodes of a kind declare, and nodes of no kind but those of declarations. -/
structure Declares (names : Tree → List String) : Prop where
  ofKind : ∀ {t u : Tree}, t.kind = u.kind → names t = names u
  silent : ∀ {t : Tree}, (∀ ns, t.kind ≠ .globalDecl ns) → (∀ ns, t.kind ≠ .nonlocalDecl ns) → names t = []

theorem declares_global : Declares globalNames where
  ofKind same := by
    unfold globalNames
    rw [same]
  silent noGlobal _ := by
    unfold globalNames
    split
    case h_1 isGlobal => exact absurd isGlobal (noGlobal _)
    case h_2 => rfl

theorem declares_outer : Declares outerNames where
  ofKind same := by
    unfold outerNames
    rw [same]
  silent _ noOuter := by
    unfold outerNames
    split
    case h_1 isOuter => exact absurd isOuter (noOuter _)
    case h_2 => rfl

variable {names : Tree → List String} {m : Mark} {kind : Kind} {slots : List (List Tree)} {t : Tree}

theorem declaredAll_eq (names : Tree → List String) (ts : List Tree) :
    declaredAll names ts = ts.flatMap (declared names) := by
  induction ts with
  | nil => rfl
  | cons t rest ih => rw [declaredAll, ih, List.flatMap_cons]

theorem declaredSlots_nil (k : Nat) (each : ∀ i slot, slots[i]? = some slot → isForeign kind (k + i) = false →
    ∀ t ∈ slot, declared names t = []) : declaredSlots names kind k slots = [] := by
  induction slots generalizing k with
  | nil => rfl
  | cons slot rest ih =>
    have later := ih (k + 1) fun i slot isSlot => by
      rw [show k + 1 + i = k + (i + 1) by omega]
      exact each (i + 1) slot isSlot
    rw [declaredSlots, later, List.append_nil]
    split
    · rfl
    case isFalse own =>
      rw [declaredAll_eq, List.flatMap_eq_nil_iff]
      exact each 0 slot rfl (by simpa using own)

theorem Declares.of_role (declares : Declares names) (role : t.kind.role = .part) : names t = [] := by
  refine declares.silent ?_ ?_
  · intro ns isKind
    rw [isKind] at role
    cases role
  · intro ns isKind
    rw [isKind] at role
    cases role

theorem declared_inert (declares : Declares names) (inert : t.Inert) : declared names t = [] := by
  induction t using Tree.inductionOn with
  | node m kind slots ih =>
    obtain ⟨role, below⟩ := Tree.inert_node.mp inert
    rw [declared, @Declares.of_role names (.node m kind slots) declares role, declaredSlots_nil, List.append_nil]
    intro i slot isSlot _ t inSlot
    have isSlot := List.mem_of_getElem? isSlot
    exact ih slot isSlot t inSlot (below slot isSlot t inSlot)

theorem declared_node_nil (declares : Declares names) (noGlobal : ∀ ns, kind ≠ .globalDecl ns)
    (noOuter : ∀ ns, kind ≠ .nonlocalDecl ns)
    (inert : ∀ k slot, slots[k]? = some slot → isForeign kind k = false → ∀ t ∈ slot, t.Inert) :
    declared names (.node m kind slots) = [] := by
  rw [declared, @Declares.silent names declares (.node m kind slots) noGlobal noOuter, List.nil_append]
  refine declaredSlots_nil 0 fun k slot isSlot own t inSlot => declared_inert declares (inert k slot isSlot ?_ t inSlot)
  rwa [Nat.zero_add] at own

theorem declared_function (declares : Declares names) {name : String} {isAsync : Bool} {comment : Option Text}
    {parameters body decorators result : List Tree} (ofParameters : ∀ t ∈ parameters, t.Inert)
    (ofDecorators : ∀ t ∈ decorators, t.Inert) (ofResult : ∀ t ∈ result, t.Inert) :
    declared names (.node m (.functionDef name isAsync comment) [parameters, body, decorators, result]) = [] := by
  refine declared_node_nil declares (by simp) (by simp) fun k slot isSlot own => ?_
  rcases k with _ | _ | _ | _ | k
  · obtain rfl := Option.some.inj isSlot
    exact ofParameters
  · cases own
  · obtain rfl := Option.some.inj isSlot
    exact ofDecorators
  · obtain rfl := Option.some.inj isSlot
    exact ofResult
  · cases isSlot

theorem declaredSlots_fill (declares : Declares names) (k : Nat) :
    declaredSlots names kind k (Tree.fillBody kind slots) = declaredSlots names kind k slots := by
  have passes : declaredAll names [Tree.passAt {}] = [] := by
    rw [declaredAll_eq, List.flatMap_cons, List.flatMap_nil, List.append_nil, Tree.passAt, declared]
    exact List.append_eq_nil_iff.mpr ⟨declares.silent nofun nofun, rfl⟩
  have fill : ∀ i k, declaredSlots names kind k
      (slots.modify i fun body => if body.isEmpty then [Tree.passAt {}] else body) = declaredSlots names kind k slots := by
    intro i
    induction slots generalizing i with
    | nil => cases i <;> exact fun _ => rfl
    | cons slot rest ih =>
      intro k
      cases i with
      | zero =>
        rw [List.modify_zero_cons, declaredSlots, declaredSlots]
        cases slot with
        | nil =>
          rw [List.isEmpty_nil, if_pos rfl, passes]
          rfl
        | cons t rest => rfl
      | succ i => rw [List.modify_succ_cons, declaredSlots, declaredSlots, ih]
  unfold Tree.fillBody
  split
  · exact fill _ k
  · rfl

theorem declared_strip (declares : Declares names) (formed : t.WellFormed) (parts : t.HasParts) :
    declared names t.stripAnnotations = declared names t := by
  induction t using Tree.inductionOn with
  | node m kind slots ih =>
    have below : ∀ slot ∈ slots, ∀ t ∈ slot, declared names t.stripAnnotations = declared names t := by
      intro slot isSlot t inSlot
      have isChild : t ∈ (Tree.node m kind slots).children := Tree.mem_children.mpr ⟨slot, isSlot, inSlot⟩
      exact ih slot isSlot t inSlot (formed.of_mem (Tree.mem_nodes_of_child isChild (Tree.mem_nodes_self t)))
        (parts.child isChild)
    by_cases isPlain : Tree.plain kind = true
    · rw [Tree.strip_plain isPlain, declared, declared, declaredSlots_fill declares]
      refine congrArg₂ (· ++ ·) (declares.ofKind rfl) ?_
      clear ih formed parts
      generalize 0 = k
      induction slots generalizing k with
      | nil => rfl
      | cons slot rest ih =>
        have here : declaredAll names (slot.map Tree.stripAnnotations) = declaredAll names slot := by
          rw [declaredAll_eq, declaredAll_eq, List.flatMap_map]
          exact List.flatMap_congr fun t inSlot => below slot (.head _) t inSlot
        rw [List.map_cons, declaredSlots, declaredSlots, here, ih fun slot member => below slot (.tail _ member)]
    · -- An annotated statement declares nothing: what belongs to its scope are parts of it.
      clear ih below
      cases kind <;> first | exact absurd rfl isPlain | skip
      case annAssign simple =>
        obtain ⟨target, annotation, value, rfl⟩ := parts.declaration
        have inert : ∀ ts ∈ [target, annotation, value], ∀ u ∈ ts, u.Inert := by
          intro ts isSlot u inSlot
          obtain ⟨k, inside, rfl⟩ := List.mem_iff_getElem.mp isSlot
          exact formed.inert_slot (List.getElem?_eq_getElem inside) rfl inSlot
        have stripped : ∀ ts ∈ [target, annotation, value], ∀ u ∈ ts.map Tree.stripAnnotations, u.Inert := by
          intro ts isSlot u inSlot
          obtain ⟨t, inside, rfl⟩ := List.mem_map.mp inSlot
          exact (inert ts isSlot t inside).strip
        rw [declared_node_nil declares (by simp) (by simp) fun k slot isSlot _ => inert slot (List.mem_of_getElem? isSlot),
          Tree.strip_declaration]
        split
        · exact declared_node_nil declares (by simp) (by simp) fun k slot isSlot => by simp at isSlot
        · refine declared_node_nil declares (by simp) (by simp) fun k slot isSlot _ => ?_
          have isSlot := List.mem_of_getElem? isSlot
          simp only [List.mem_cons, List.not_mem_nil, or_false] at isSlot
          rcases isSlot with rfl | rfl
          · exact stripped target (by simp)
          · exact stripped value (by simp)
      case functionDef name isAsync comment =>
        obtain ⟨m', posOnly, args, variadic, keywordOnly, keywordDefaults, keywordVariadic, defaults, body, decorators,
          result, rfl, -⟩ := parts.function
        generalize Tree.node m' .arguments _ = parameters at *
        have ofParameters := formed.inert_slot (k := 0) rfl rfl (List.mem_singleton_self parameters)
        have ofDecorators : ∀ u ∈ decorators, u.Inert := fun u => formed.inert_slot (k := 2) rfl rfl
        have ofResult : ∀ u ∈ result, u.Inert := fun u => formed.inert_slot (k := 3) rfl rfl
        rw [declared_function declares (by simpa using ofParameters) ofDecorators ofResult, Tree.strip_function]
        refine declared_function declares ?_ ?_ (by simp)
        · simpa using ofParameters.strip.signature
        · intro u inSlot
          obtain ⟨t, inside, rfl⟩ := List.mem_map.mp inSlot
          exact (ofDecorators t inside).strip

end Scope

/-! ## Names of functions -/

namespace Tree

/-- The names that belong to a function. -/
def localNames (f : Tree) : List String := Scope.localNames (f.part 0) (f.slot 1)

/-- The names that a function declares to belong to the file. -/
def globalNames (f : Tree) : List String := Scope.declaredAll Scope.globalNames (f.slot 1)

/-- The names that a function declares to belong to a function around. -/
def outerNames (f : Tree) : List String := Scope.declaredAll Scope.outerNames (f.slot 1)

/-- A name is a parameter of a function, or bound in its body elsewhere than in annotations. -/
def Keeps (f : Tree) (x : String) : Prop :=
  x ∈ Scope.parameterNames (f.part 0) ∨ x ∈ Scope.lastingAll false (f.slot 1)

instance (f : Tree) (x : String) : Decidable (f.Keeps x) :=
  inferInstanceAs (Decidable (x ∈ Scope.parameterNames (f.part 0) ∨ x ∈ Scope.lastingAll false (f.slot 1)))

theorem mem_localNames {f : Tree} {x : String} : x ∈ f.localNames ↔
    (x ∈ Scope.parameterNames (f.part 0) ∨ x ∈ Scope.boundAll false (f.slot 1)) ∧ x ∉ f.globalNames ∧ x ∉ f.outerNames := by
  unfold localNames Scope.localNames Scope.keptHere globalNames outerNames
  simp [List.mem_filter, List.mem_eraseDups]

/-- What is told by the kinds of parameters alone but for their type comments stays the same. -/
theorem filterMap_parameters {nameOf : Tree → Option String} (keepComment : Bool)
    (alike : ∀ m m' name comment comment' slots slots',
      nameOf (.node m (.arg name comment) slots) = nameOf (.node m' (.arg name comment') slots'))
    {ps : List Tree} (isParameter : ∀ p ∈ ps, p.kind.isParameter = true) :
    ((ps.map stripAnnotations).map (stripParameter keepComment)).filterMap nameOf = ps.filterMap nameOf := by
  rw [List.map_map, List.filterMap_map]
  refine List.filterMap_congr fun p member => ?_
  obtain ⟨m, kind, slots⟩ := p
  cases kind <;> first | exact alike .. | cases isParameter _ member

theorem parameterNames_strip {m : Mark}
    {posOnly args variadic keywordOnly keywordDefaults keywordVariadic defaults : List Tree}
    (isParameter : ∀ p ∈ posOnly ++ args ++ variadic ++ keywordOnly ++ keywordVariadic, p.kind.isParameter = true) :
    Scope.parameterNames (stripSignature (stripAnnotations (.node m .arguments
      [posOnly, args, variadic, keywordOnly, keywordDefaults, keywordVariadic, defaults]))) =
    Scope.parameterNames (.node m .arguments
      [posOnly, args, variadic, keywordOnly, keywordDefaults, keywordVariadic, defaults]) := by
  simp only [List.mem_append, or_imp, forall_and] at isParameter
  obtain ⟨⟨⟨⟨ofPosOnly, ofArgs⟩, ofVariadic⟩, ofKeywordOnly⟩, ofKeywordVariadic⟩ := isParameter
  rw [strip_plain rfl]
  simp only [Scope.parameterNames, fillBody, bodySlot?, List.map_cons, List.map_nil, stripSignature, stripParameters,
    List.flatMap_cons, List.flatMap_nil, slot, Tree.slots, List.getD_cons_zero, List.getD_cons_succ]
  rw [filterMap_parameters false (by intros; rfl) ofPosOnly, filterMap_parameters false (by intros; rfl) ofArgs,
    filterMap_parameters true (by intros; rfl) ofVariadic, filterMap_parameters false (by intros; rfl) ofKeywordOnly,
    filterMap_parameters true (by intros; rfl) ofKeywordVariadic]

theorem declaredAll_body {names : Tree → List String} (declares : Scope.Declares names) {body : List Tree}
    (formed : ∀ t ∈ body, t.WellFormed) (parts : ∀ t ∈ body, t.HasParts) :
    Scope.declaredAll names (if body.isEmpty then [passAt {}] else body.map stripAnnotations) =
      Scope.declaredAll names body := by
  rw [Scope.declaredAll_eq, Scope.declaredAll_eq]
  split
  case isTrue none =>
    obtain rfl := List.isEmpty_iff.mp none
    rw [List.flatMap_cons, List.flatMap_nil, List.append_nil]
    exact Scope.declared_node_nil declares (by simp) (by simp) fun k slot isSlot => by simp at isSlot
  case isFalse =>
    rw [List.flatMap_map]
    exact List.flatMap_congr fun t inBody => Scope.declared_strip declares (formed t inBody) (parts t inBody)

theorem boundAll_body {body : List Tree} (parts : ∀ t ∈ body, t.HasParts) :
    Scope.boundAll false (if body.isEmpty then [passAt {}] else body.map stripAnnotations) =
      Scope.lastingAll false body := by
  rw [Scope.boundAll_eq, Scope.lastingAll_eq]
  split
  case isTrue none =>
    obtain rfl := List.isEmpty_iff.mp none
    rfl
  case isFalse =>
    rw [List.flatMap_map]
    exact List.flatMap_congr fun t inBody => Scope.bound_strip (parts t inBody) false

variable {f : Tree} {x : String}

/-- Stripping leaves a function the names that it keeps, and what it declares to belong elsewhere. -/
theorem names_strip (isFunction : f.kind.isFunction = true) (formed : f.WellFormed) (parts : f.HasParts) :
    (∀ x, x ∈ f.stripAnnotations.localNames ↔ x ∈ f.localNames ∧ f.Keeps x) ∧
      f.stripAnnotations.globalNames = f.globalNames ∧ f.stripAnnotations.outerNames = f.outerNames := by
  obtain ⟨m, kind, slots⟩ := f
  cases kind
  case functionDef name isAsync comment =>
    obtain ⟨m', posOnly, args, variadic, keywordOnly, keywordDefaults, keywordVariadic, defaults, body, decorators,
      result, rfl, isParameter⟩ := parts.function
    have isChild : ∀ t ∈ body, t ∈ (Tree.node m (.functionDef name isAsync comment) [[.node m' .arguments
        [posOnly, args, variadic, keywordOnly, keywordDefaults, keywordVariadic, defaults]], body, decorators,
        result]).children := fun t inBody => mem_children.mpr ⟨body, by simp, inBody⟩
    have formed' : ∀ t ∈ body, t.WellFormed := fun t inBody =>
      formed.of_mem (mem_nodes_of_child (isChild t inBody) (mem_nodes_self t))
    have parts' : ∀ t ∈ body, t.HasParts := fun t inBody => parts.child (isChild t inBody)
    have globals := declaredAll_body Scope.declares_global formed' parts'
    have outers := declaredAll_body Scope.declares_outer formed' parts'
    have bound := boundAll_body parts'
    have parameters := @parameterNames_strip m' _ _ _ _ keywordDefaults _ defaults isParameter
    have isBound : ∀ x, x ∈ Scope.lastingAll false body → x ∈ Scope.boundAll false body := by
      intro x isName
      rw [Scope.lastingAll_eq] at isName
      obtain ⟨t, inBody, isName⟩ := List.mem_flatMap.mp isName
      rw [Scope.boundAll_eq]
      exact List.mem_flatMap.mpr ⟨t, inBody, Scope.mem_bound_of_lasting (parts' t inBody) isName⟩
    rw [strip_function]
    refine ⟨fun x => ?_, globals, outers⟩
    have isBound := isBound x
    rw [mem_localNames, mem_localNames]
    unfold Keeps globalNames outerNames
    simp only [part, part?, slot, Tree.slots, List.getD_cons_zero, List.getD_cons_succ, List.map_cons, List.map_nil,
      List.head?_cons, Option.getD_some]
    rw [parameters, bound, globals, outers]
    grind
  all_goals cases isFunction

/-! ## Functions of a stripped tree -/

theorem Inert.no_function {t n : Tree} (inert : t.Inert) (inside : n ∈ t.nodes) : n.kind.isFunction = false := by
  have role := inert n inside
  cases isKind : n.kind <;> rw [isKind] at role <;> first | rfl | cases role

theorem mem_fillBody {kind : Kind} {slots : List (List Tree)} {slot : List Tree} (isSlot : slot ∈ fillBody kind slots) :
    slot ∈ slots ∨ slot = [passAt {}] := by
  unfold fillBody at isSlot
  split at isSlot
  · obtain ⟨i, inside, rfl⟩ := List.mem_iff_getElem.mp isSlot
    rw [List.getElem_modify]
    have member := List.getElem_mem (List.length_modify .. ▸ inside : i < slots.length)
    split
    · split
      · exact .inr rfl
      · exact .inl member
    · exact .inl member
  · exact .inl isSlot

theorem fillBody_keeps {kind : Kind} {slots : List (List Tree)} {slot : List Tree} {t : Tree} (isSlot : slot ∈ slots)
    (inSlot : t ∈ slot) : slot ∈ fillBody kind slots := by
  unfold fillBody
  split
  · obtain ⟨i, inside, rfl⟩ := List.mem_iff_getElem.mp isSlot
    refine List.mem_iff_getElem.mpr ⟨i, by rwa [List.length_modify], ?_⟩
    rw [List.getElem_modify]
    split
    · split
      case isTrue none =>
        rw [List.isEmpty_iff.mp none] at inSlot
        cases inSlot
      case isFalse => rfl
    · rfl
  · exact isSlot

theorem plain_of_function {kind : Kind} (isFunction : kind.isFunction = true) : plain kind = false := by
  cases kind <;> first | rfl | cases isFunction

theorem mem_nodes_passAt {n : Tree} {place : Mark} (inside : n ∈ (passAt place).nodes) : n.kind.isFunction = false := by
  rw [nodes_eq] at inside
  rcases List.mem_cons.mp inside with rfl | inside
  · rfl
  · cases inside

theorem strip_mem_nodes {t f : Tree} (formed : t.WellFormed) (parts : t.HasParts) (inside : f ∈ t.nodes)
    (isFunction : f.kind.isFunction = true) : f.stripAnnotations ∈ t.stripAnnotations.nodes := by
  induction t using Tree.inductionOn with
  | node m kind slots ih =>
    rw [nodes_eq] at inside
    rcases List.mem_cons.mp inside with rfl | inside
    · exact mem_nodes_self _
    obtain ⟨t, isChild, inside⟩ := List.mem_flatMap.mp inside
    obtain ⟨slot, isSlot, inSlot⟩ := mem_children.mp isChild
    have below := ih slot isSlot t inSlot (formed.of_mem (mem_nodes_of_child isChild (mem_nodes_self t)))
      (parts.child isChild) inside
    have notInert : ¬ t.Inert := by
      intro inert
      rw [inert.no_function inside] at isFunction
      cases isFunction
    by_cases isPlain : plain kind = true
    · rw [strip_plain isPlain]
      refine mem_nodes_of_child (mem_children.mpr ⟨slot.map stripAnnotations, ?_, List.mem_map_of_mem inSlot⟩) below
      exact fillBody_keeps (List.mem_map_of_mem isSlot) (List.mem_map_of_mem inSlot)
    · obtain ⟨k, short, rfl⟩ := List.mem_iff_getElem.mp isSlot
      -- A function below stands in a block, and only a function is annotated and has one.
      have block : kind.holds k ≠ .part := fun holds =>
        notInert (formed.inert_slot (List.getElem?_eq_getElem short) holds inSlot)
      cases kind <;> first | exact absurd rfl isPlain | skip
      case annAssign simple => exact absurd rfl block
      case functionDef name isAsync comment =>
        obtain ⟨m', posOnly, args, variadic, keywordOnly, keywordDefaults, keywordVariadic, defaults, body, decorators,
          result, rfl, -⟩ := parts.function
        rcases k with _ | _ | _ | _ | k
        case succ.zero =>
          have notEmpty : body.isEmpty = false := List.isEmpty_eq_false_iff_exists_mem.mpr ⟨t, inSlot⟩
          rw [strip_function, notEmpty]
          exact mem_nodes_of_child (mem_children.mpr ⟨body.map stripAnnotations, by simp, List.mem_map_of_mem inSlot⟩) below
        all_goals exact absurd rfl block

theorem mem_nodes_strip {t g : Tree} (formed : t.WellFormed) (parts : t.HasParts) (inside : g ∈ t.stripAnnotations.nodes)
    (isFunction : g.kind.isFunction = true) :
    ∃ f ∈ t.nodes, f.kind.isFunction = true ∧ g = f.stripAnnotations := by
  induction t using Tree.inductionOn with
  | node m kind slots ih =>
    have below : ∀ slot ∈ slots, ∀ u ∈ slot.map stripAnnotations, g ∈ u.nodes →
        ∃ f ∈ (Tree.node m kind slots).nodes, f.kind.isFunction = true ∧ g = f.stripAnnotations := by
      intro slot isSlot u inStripped inside
      obtain ⟨t, inSlot, rfl⟩ := List.mem_map.mp inStripped
      have isChild : t ∈ (Tree.node m kind slots).children := mem_children.mpr ⟨slot, isSlot, inSlot⟩
      obtain ⟨f, inside, found⟩ := ih slot isSlot t inSlot
        (formed.of_mem (mem_nodes_of_child isChild (mem_nodes_self t))) (parts.child isChild) inside
      exact ⟨f, mem_nodes_of_child isChild inside, found⟩
    have notInert : ∀ {t : Tree}, g ∈ t.nodes → ¬ t.Inert := by
      intro t inside inert
      rw [inert.no_function inside] at isFunction
      cases isFunction
    have notPass : ∀ {place : Mark}, g ∉ (passAt place).nodes := by
      intro place inside
      rw [mem_nodes_passAt inside] at isFunction
      cases isFunction
    by_cases isPlain : plain kind = true
    · rw [strip_plain isPlain, nodes_eq] at inside
      rcases List.mem_cons.mp inside with rfl | inside
      · exact absurd isPlain (Bool.eq_false_iff.mp (plain_of_function isFunction))
      obtain ⟨u, isChild, inside⟩ := List.mem_flatMap.mp inside
      obtain ⟨slot', isSlot, inSlot⟩ := mem_children.mp isChild
      rcases mem_fillBody isSlot with isSlot | rfl
      · obtain ⟨slot, isSlot', rfl⟩ := List.mem_map.mp isSlot
        exact below slot isSlot' u inSlot inside
      · obtain rfl := List.mem_singleton.mp inSlot
        exact absurd inside notPass
    · cases kind <;> first | exact absurd rfl isPlain | skip
      case annAssign simple =>
        obtain ⟨target, annotation, value, rfl⟩ := parts.declaration
        rw [strip_declaration] at inside
        split at inside
        · exact absurd inside notPass
        · rw [nodes_eq] at inside
          rcases List.mem_cons.mp inside with rfl | inside
          · cases isFunction
          obtain ⟨u, isChild, inside⟩ := List.mem_flatMap.mp inside
          obtain ⟨slot', isSlot, inSlot⟩ := mem_children.mp isChild
          simp only [List.mem_cons, List.not_mem_nil, or_false] at isSlot
          rcases isSlot with rfl | rfl
          · exact below target (by simp) u inSlot inside
          · exact below value (by simp) u inSlot inside
      case functionDef name isAsync comment =>
        obtain ⟨m', posOnly, args, variadic, keywordOnly, keywordDefaults, keywordVariadic, defaults, body, decorators,
          result, rfl, -⟩ := parts.function
        have ofParameters := formed.inert_slot (k := 0) rfl rfl (List.mem_singleton_self _)
        generalize Tree.node m' .arguments _ = parameters at *
        have whole := strip_function ▸ inside
        rw [nodes_eq] at whole
        rcases List.mem_cons.mp whole with rfl | whole
        · exact ⟨_, mem_nodes_self _, rfl, strip_function.symm⟩
        obtain ⟨u, isChild, inside⟩ := List.mem_flatMap.mp whole
        obtain ⟨slot', isSlot, inSlot⟩ := mem_children.mp isChild
        simp only [List.mem_cons, List.not_mem_nil, or_false] at isSlot
        rcases isSlot with rfl | rfl | rfl | rfl
        · obtain rfl := List.mem_singleton.mp inSlot
          exact absurd ofParameters.strip.signature (notInert inside)
        · split at inSlot
          · obtain rfl := List.mem_singleton.mp inSlot
            exact absurd inside notPass
          · exact below body (by simp) u inSlot inside
        · exact below decorators (by simp) u inSlot inside
        · cases inSlot

/-! ## Resolution -/

/-- The function that a name belongs to, of those around a place from the inside out; none if it belongs to the file or
to no function of them. -/
def owner (x : String) : List Tree → Option Tree
  | [] => none
  | f :: around =>
    if x ∈ f.globalNames then none else if x ∈ f.localNames then some f else owner x around

/-- A name belongs to the same function after stripping if the functions around keep it. -/
theorem owner_strip {x : String} {around : List Tree}
    (functions : ∀ f ∈ around, f.kind.isFunction = true ∧ f.WellFormed ∧ f.HasParts)
    (keeps : ∀ f ∈ around, x ∈ f.localNames → f.Keeps x) :
    owner x (around.map stripAnnotations) = (owner x around).map stripAnnotations := by
  induction around with
  | nil => rfl
  | cons f around ih =>
    obtain ⟨isFunction, formed, parts⟩ := functions f (.head _)
    obtain ⟨locals, globals, -⟩ := names_strip isFunction formed parts
    have later := ih (fun f member => functions f (.tail _ member)) fun f member => keeps f (.tail _ member)
    rw [List.map_cons, owner, owner, globals, later, if_congr (locals x) rfl rfl]
    by_cases isGlobal : x ∈ f.globalNames
    · rw [if_pos isGlobal, if_pos isGlobal]
      rfl
    by_cases isLocal : x ∈ f.localNames
    · rw [if_neg isGlobal, if_neg isGlobal, if_pos ⟨isLocal, keeps f (.head _) isLocal⟩, if_pos isLocal]
      rfl
    · rw [if_neg isGlobal, if_neg isGlobal, if_neg fun both => isLocal both.1, if_neg isLocal]

/-- Stripping turns the functions of a tree into those of the stripped tree.  Each keeps its declarations of names that
belong elsewhere, and the names of its own that it has other than by annotations.  A name of which this holds in all
functions around a place belongs to the same function as before. -/
theorem stripped_names_resolve {t : Tree} (formed : t.WellFormed) (parts : t.HasParts) :
    (∀ f ∈ t.nodes, f.kind.isFunction = true →
      f.stripAnnotations ∈ t.stripAnnotations.nodes ∧
      (∀ x, x ∈ f.stripAnnotations.localNames ↔ x ∈ f.localNames ∧ f.Keeps x) ∧
      f.stripAnnotations.globalNames = f.globalNames ∧ f.stripAnnotations.outerNames = f.outerNames) ∧
    (∀ g ∈ t.stripAnnotations.nodes, g.kind.isFunction = true →
      ∃ f ∈ t.nodes, f.kind.isFunction = true ∧ g = f.stripAnnotations) ∧
    ∀ x around, (∀ f ∈ around, f ∈ t.nodes ∧ f.kind.isFunction = true ∧ (x ∈ f.localNames → f.Keeps x)) →
      owner x (around.map stripAnnotations) = (owner x around).map stripAnnotations := by
  refine ⟨fun f inside isFunction => ⟨strip_mem_nodes formed parts inside isFunction, ?_⟩,
    fun g inside isFunction => mem_nodes_strip formed parts inside isFunction, fun x around each => ?_⟩
  · exact names_strip isFunction (formed.of_mem inside) (parts.of_mem inside)
  · refine owner_strip (fun f member => ?_) fun f member => (each f member).2.2
    obtain ⟨inside, isFunction, -⟩ := each f member
    exact ⟨isFunction, formed.of_mem inside, parts.of_mem inside⟩

def functionOf (name : String) (body : List Tree) : Tree :=
  .node {} (.functionDef name false none) [[.node {} .arguments [[], [], [], [], [], [], []]], body, [], []]

/-- A function that writes to a variable of a function around. -/
def writer : Tree :=
  functionOf "h" [.node {} (.nonlocalDecl ["v"]) [],
    .node {} (.assign none) [[.node {} (.name "v" .store) []], [.node {} (.name "w" .load) []]]]

/-- A function around it with the variable, which has no value before. -/
def declarer : Tree :=
  functionOf "g" [.node {} (.annAssign true) [[.node {} (.name "v" .store) []], [.node {} (.name "int" .load) []], []],
    writer]

/-- A function around both with a variable of the same name. -/
def shadowed : Tree :=
  functionOf "m" [.node {} (.assign none) [[.node {} (.name "v" .store) []], [.node {} (.name "w" .load) []]], declarer]

theorem names_resolve_writer : shadowed.WellFormed ∧ shadowed.HasParts ∧
    (∀ x, x ∈ writer.stripAnnotations.localNames ↔ x ∈ writer.localNames ∧ writer.Keeps x) ∧
    owner "g" ([writer, declarer, shadowed].map stripAnnotations) = some shadowed.stripAnnotations := by
  have formed : shadowed.WellFormed := by decide
  have parts : shadowed.HasParts := by decide
  have inDeclarer : declarer ∈ shadowed.nodes :=
    mem_nodes_of_child (.tail _ (.tail _ (.head _))) (mem_nodes_self declarer)
  have inWriter : writer ∈ shadowed.nodes :=
    mem_nodes_trans inDeclarer (mem_nodes_of_child (.tail _ (.tail _ (.head _))) (mem_nodes_self writer))
  obtain ⟨functions, -, resolve⟩ := stripped_names_resolve formed parts
  refine ⟨formed, parts, (functions writer inWriter rfl).2.1, ?_⟩
  refine resolve "g" [writer, declarer, shadowed] fun f member => ?_
  simp only [List.mem_cons, List.not_mem_nil, or_false] at member
  rcases member with rfl | rfl | rfl
  · exact ⟨inWriter, rfl, by decide⟩
  · exact ⟨inDeclarer, rfl, by decide⟩
  · exact ⟨mem_nodes_self shadowed, rfl, by decide⟩

/-- A declaration without a value makes a variable of its function, which is lost with it: what is written to the
variable then goes to the one of the function around. -/
theorem declared_name_moves : "v" ∈ declarer.localNames ∧ "v" ∉ declarer.stripAnnotations.localNames ∧
    owner "v" [writer, declarer, shadowed] = some declarer ∧
    owner "v" ([writer, declarer, shadowed].map stripAnnotations) = some shadowed.stripAnnotations := by
  refine ⟨by decide, by decide, rfl, rfl⟩

end Tree

end MacroExpand
