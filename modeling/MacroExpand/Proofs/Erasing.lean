import MacroExpand.Proofs.Nesting
import MacroExpand.Proofs.Stripping
import MacroExpand.Sandbox.Starting

/-!
# What stripping leaves

Stripping works on functions and declarations as it meets them.  What it leaves is told by the slots that hold
annotations: they are empty, declarations are assignments or `pass`, and everything else is as it was, up to type
comments (`Tree.erase`).  Where no annotation stands, nothing but type comments is lost, so a macro without annotations
needs no stripping.
-/

set_option autoImplicit false

namespace MacroExpand

/-! ## Trees without annotations -/

/-- A kind without its type comment. -/
def Kind.uncommented : Kind → Kind
  | .functionDef id isAsync _ => .functionDef id isAsync none
  | .assign _ => .assign none
  | .forLoop isAsync _ => .forLoop isAsync none
  | .withStmt isAsync _ => .withStmt isAsync none
  | .arg id _ => .arg id none
  | kind => kind

def Kind.annotates : Kind → Nat → Bool
  | .functionDef .., 3 | .arg .., 0 => true
  | _, _ => false

namespace Tree

def leave (kind : Kind) (k : Nat) (slot : List Tree) : List Tree :=
  if kind.annotates k then [] else if bodySlot? kind = some k ∧ slot = [] then [passAt {}] else slot

mutual

/-- A tree without type comments. -/
def uncommented : Tree → Tree
  | .node m kind slots => .node m kind.uncommented (uncommentedSlots slots)

def uncommentedSlots : List (List Tree) → List (List Tree)
  | [] => []
  | slot :: rest => uncommentedAll slot :: uncommentedSlots rest

def uncommentedAll : List Tree → List Tree
  | [] => []
  | t :: rest => uncommented t :: uncommentedAll rest

end

mutual

/-- A tree without annotations and type comments. -/
def erase : Tree → Tree
  | .node m (.annAssign _) [target, _, value] =>
    if value.isEmpty then passAt m
    else .node { m with label := 0, origin := none } (.assign none) [eraseAll target, eraseAll value]
  | .node m kind slots => .node m kind.uncommented (eraseSlots kind 0 slots)

def eraseSlots (kind : Kind) (k : Nat) : List (List Tree) → List (List Tree)
  | [] => []
  | slot :: rest => leave kind k (eraseAll slot) :: eraseSlots kind (k + 1) rest

def eraseAll : List Tree → List Tree
  | [] => []
  | t :: rest => erase t :: eraseAll rest

end

variable {m : Mark} {kind : Kind} {slots : List (List Tree)} {t : Tree}

theorem uncommented_node (m : Mark) (kind : Kind) (slots : List (List Tree)) :
    (Tree.node m kind slots).uncommented = .node m kind.uncommented (slots.map (List.map uncommented)) := by
  have all : ∀ ts : List Tree, uncommentedAll ts = ts.map uncommented := by
    intro ts
    induction ts with
    | nil => rfl
    | cons t rest ih => rw [uncommentedAll, ih, List.map_cons]
  have each : ∀ slots : List (List Tree), uncommentedSlots slots = slots.map (List.map uncommented) := by
    intro slots
    induction slots with
    | nil => rfl
    | cons slot rest ih => rw [uncommentedSlots, all, ih, List.map_cons]
  rw [uncommented, each]

theorem eraseAll_eq (ts : List Tree) : eraseAll ts = ts.map erase := by
  induction ts with
  | nil => rfl
  | cons t rest ih => rw [eraseAll, ih, List.map_cons]

theorem eraseSlots_eq (kind : Kind) (k : Nat) (slots : List (List Tree)) :
    eraseSlots kind k slots = (slots.map (List.map erase)).mapIdx fun i => leave kind (k + i) := by
  induction slots generalizing k with
  | nil => rfl
  | cons slot rest ih =>
    rw [eraseSlots, eraseAll_eq, ih, List.map_cons, List.mapIdx_cons]
    simp only [Nat.add_zero, Nat.add_assoc, Nat.add_comm 1]

theorem erase_node (noDeclaration : ∀ simple, kind ≠ .annAssign simple) : (Tree.node m kind slots).erase =
    .node m kind.uncommented ((slots.map (List.map erase)).mapIdx (leave kind)) := by
  rw [erase, eraseSlots_eq]
  · simp only [Nat.zero_add]
  · rintro _ _ _ _ rfl
    exact absurd rfl (noDeclaration _)

theorem erase_declaration {simple : Bool} {target annotation value : List Tree} :
    (Tree.node m (.annAssign simple) [target, annotation, value]).erase =
      if value.isEmpty then passAt m
      else .node { m with label := 0, origin := none } (.assign none) [target.map erase, value.map erase] := by
  rw [erase, eraseAll_eq, eraseAll_eq]

/-! ## Where annotations stand -/

def isTypedParameter (t : Tree) : Bool := t.kind.isParameter && t.isAnnotated

def isLoose (t : Tree) : Bool := t.isTypedParameter || t.kind = .arguments && t.children.any isTypedParameter

/-- Whether a tree may stand in a slot: parameters stand in lists of parameters, and lists with annotations belong to
functions. -/
def admits : Kind → Nat → Tree → Bool
  | .functionDef .., 0, _ => true
  | .arguments, 4, u | .arguments, 6, u => !u.isLoose
  | .arguments, _, u => u.kind.isParameter
  | _, _, u => !u.isLoose

/-- Whether the trees in the slots of a node may stand there.  A parameter has one slot, and a lambda has parameters. -/
def isSeated (n : Tree) : Bool :=
  (match n.kind with
    | .arg .. => n.slots.length == 1
    | .lambdaExpr => Kind.isSignature [n.slot 0, [], [], []]
    | _ => true) &&
  n.slots.zipIdx.all fun slot => slot.1.all (admits n.kind slot.2)

/-- Annotations stand in a tree where they stand in any text. -/
structure Annotates (t : Tree) : Prop where
  parts : t.HasParts
  seated : ∀ n ∈ t.nodes, n.isSeated = true
  tight : t.isLoose = false

instance (t : Tree) : Decidable t.Annotates :=
  decidable_of_iff (t.HasParts ∧ (∀ n ∈ t.nodes, n.isSeated = true) ∧ t.isLoose = false)
    ⟨fun ⟨parts, seated, tight⟩ => ⟨parts, seated, tight⟩, fun h => ⟨h.parts, h.seated, h.tight⟩⟩

/-- No body is empty. -/
def Filled (t : Tree) : Prop := ∀ n ∈ t.nodes, ∀ k ∈ bodySlot? n.kind, n.slots[k]? ≠ some []

instance (t : Tree) : Decidable t.Filled :=
  decidable_of_iff (∀ n ∈ t.nodes, ((bodySlot? n.kind).all fun k => !(n.slots[k]?.any List.isEmpty)) = true) <| by
    refine forall₂_congr fun n _ => ?_
    cases bodySlot? n.kind with
    | none => simp
    | some k => cases isSlot : n.slots[k]? <;> simp [isSlot]

theorem leave_of_annotates {k : Nat} (annotates : kind.annotates k = true) (slot : List Tree) : leave kind k slot = [] :=
  if_pos annotates

theorem fillBody_eq (unannotated : ∀ k, kind.annotates k = false) : fillBody kind slots = slots.mapIdx (leave kind) := by
  have each : ∀ k slot, leave kind k slot = if bodySlot? kind = some k ∧ slot = [] then [passAt {}] else slot := by
    intro k slot
    rw [leave, unannotated]
    rfl
  refine List.ext_getElem? fun k => ?_
  rw [fillBody, List.getElem?_mapIdx]
  cases body : bodySlot? kind with
  | none => cases slots[k]? <;> simp [each, body]
  | some i =>
    rw [List.getElem?_modify]
    cases slots[k]? with
    | none => simp
    | some slot => by_cases same : i = k <;> simp [each, body, same]

theorem leave_uncommented (kind : Kind) (k : Nat) (slot : List Tree) :
    (leave kind k slot).map uncommented = leave kind k (slot.map uncommented) := by
  unfold leave
  split
  · rfl
  · cases slot <;> simp only [List.map_nil, List.map_cons, reduceCtorEq, and_false, if_false, apply_ite (List.map uncommented)]
    rfl

theorem admits_of_isSeated {n u : Tree} (seated : n.isSeated = true) {k : Nat} {slot : List Tree}
    (isSlot : n.slots[k]? = some slot) (inSlot : u ∈ slot) : admits n.kind k u = true := by
  rw [isSeated, Bool.and_eq_true, List.all_eq_true] at seated
  exact List.all_eq_true.mp (seated.2 (slot, k) (List.mem_zipIdx_iff_getElem?.mpr isSlot)) u inSlot

theorem parameter_of_isSeated {n : Tree} (seated : n.isSeated = true) (isParameter : n.kind.isParameter = true) :
    ∃ m id comment annotated, n = .node m (.arg id comment) [annotated] := by
  obtain ⟨m, kind, slots⟩ := n
  cases kind with
  | arg id comment =>
    rw [isSeated, Bool.and_eq_true] at seated
    obtain ⟨annotated, rfl⟩ := List.length_eq_one_iff.mp (beq_iff_eq.mp seated.1)
    exact ⟨m, id, comment, annotated, rfl⟩
  | _ => cases isParameter

/-! ## What stripping leaves is what erasing leaves -/

section Stripped

variable (below : ∀ slot ∈ slots, ∀ t ∈ slot, t.stripAnnotations.uncommented = t.erase)
include below

theorem slots_uncommented : (slots.map (List.map stripAnnotations)).map (List.map uncommented) =
    slots.map (List.map erase) := by
  rw [List.map_map]
  refine List.map_congr_left fun slot isSlot => ?_
  rw [Function.comp_apply, List.map_map]
  exact List.map_congr_left fun t inSlot => below slot isSlot t inSlot

/-- Without an annotation of its own a node loses what its parts lose. -/
theorem strip_uncommented_plain (isPlain : plain kind = true) (unannotated : ∀ k, kind.annotates k = false) :
    (Tree.node m kind slots).stripAnnotations.uncommented = (Tree.node m kind slots).erase := by
  have noDeclaration : ∀ simple, kind ≠ .annAssign simple := by
    rintro simple rfl
    cases isPlain
  rw [strip_plain isPlain, fillBody_eq unannotated, uncommented_node, erase_node noDeclaration, ← slots_uncommented below]
  refine congrArg (Tree.node m kind.uncommented) (List.ext_getElem? fun k => ?_)
  simp only [List.getElem?_map, List.getElem?_mapIdx]
  cases slots[k]? with
  | none => rfl
  | some slot => exact congrArg some (leave_uncommented kind k _)

end Stripped

theorem parameter_uncommented {p : Tree} (seated : p.isSeated = true) (isParameter : p.kind.isParameter = true)
    (keepComment : Bool) : (stripParameter keepComment p.stripAnnotations).uncommented = p.erase := by
  obtain ⟨m, id, comment, annotation, rfl⟩ := parameter_of_isSeated seated isParameter
  rfl

/-- In a list of parameters without annotations nothing is annotated. -/
theorem tight_of_arguments {slot : List Tree} {u : Tree} (seated : (Tree.node m .arguments slots).isSeated = true)
    (tight : (Tree.node m .arguments slots).isLoose = false) (isSlot : slot ∈ slots) (inSlot : u ∈ slot) :
    u.isLoose = false := by
  have none : u.isTypedParameter = false := by
    have all : (Tree.node m .arguments slots).children.any isTypedParameter = false := (Bool.or_eq_false_iff.mp tight).2
    exact Bool.eq_false_iff.mpr (List.any_eq_false.mp all u (mem_children.mpr ⟨slot, isSlot, inSlot⟩))
  obtain ⟨k, atSlot⟩ := List.mem_iff_getElem?.mp isSlot
  have admitted : admits .arguments k u = true := admits_of_isSeated seated atSlot inSlot
  by_cases isParameter : u.kind.isParameter = true
  · have noList : u.kind ≠ .arguments := fun isList => by
      rw [isList] at isParameter
      cases isParameter
    simp [isLoose, none, noList]
  · unfold admits at admitted
    split at admitted <;> simp_all

/-- The parameters of a function lose their annotations, if what stands in their defaults does. -/
theorem signature_uncommented {posOnly args variadic keywordOnly keywordDefaults keywordVariadic defaults : List Tree}
    {p : Tree} (isSignature : p = .node m .arguments
      [posOnly, args, variadic, keywordOnly, keywordDefaults, keywordVariadic, defaults])
    (seated : ∀ n ∈ p.nodes, n.isSeated = true) (within : ∀ u ∈ p.nodes, (∀ n ∈ u.nodes, n.isSeated = true) →
      u.isLoose = false → u.stripAnnotations.uncommented = u.erase) :
    (stripSignature p.stripAnnotations).uncommented = p.erase := by
  have inside : ∀ {k : Nat} {slot : List Tree}, p.slots[k]? = some slot → ∀ t ∈ slot, t ∈ p.nodes := fun isSlot t inSlot =>
    mem_nodes_of_child (List.mem_flatten.mpr ⟨_, List.mem_of_getElem? isSlot, inSlot⟩) (mem_nodes_self t)
  have parameters : ∀ {k : Nat} {ps : List Tree} (keepComment : Bool), p.slots[k]? = some ps →
      (∀ u, admits p.kind k u = u.kind.isParameter) →
      ((ps.map stripAnnotations).map (stripParameter keepComment)).map uncommented = ps.map erase := by
    intro k ps keepComment isSlot asks
    rw [List.map_map, List.map_map]
    refine List.map_congr_left fun q member => parameter_uncommented (seated q (inside isSlot q member)) ?_ keepComment
    exact asks q ▸ admits_of_isSeated (seated p (mem_nodes_self p)) isSlot member
  have others : ∀ {k : Nat} {ts : List Tree}, p.slots[k]? = some ts → (∀ u, admits p.kind k u = !u.isLoose) →
      (ts.map stripAnnotations).map uncommented = ts.map erase := by
    intro k ts isSlot asks
    rw [List.map_map]
    refine List.map_congr_left fun t member => within t (inside isSlot t member) (fun n below => ?_) ?_
    · exact seated n (mem_nodes_trans (inside isSlot t member) below)
    · have isTight := asks t ▸ admits_of_isSeated (seated p (mem_nodes_self p)) isSlot member
      simpa using isTight
  subst isSignature
  have noDeclaration : ∀ simple, Kind.arguments ≠ .annAssign simple := fun _ => nofun
  rw [strip_plain rfl, erase_node noDeclaration]
  simp only [fillBody, bodySlot?, List.map_cons, List.map_nil, stripSignature, stripParameters, uncommented_node]
  rw [parameters (k := 0) _ rfl fun _ => rfl, parameters (k := 1) _ rfl fun _ => rfl, parameters (k := 2) _ rfl fun _ => rfl,
    parameters (k := 3) _ rfl fun _ => rfl, others (k := 4) rfl fun _ => rfl, parameters (k := 5) _ rfl fun _ => rfl,
    others (k := 6) rfl fun _ => rfl]
  rfl

/-- Up to type comments, what stripping leaves of a tree is what is left of it without the slots for annotations. -/
theorem Annotates.strip_uncommented (annotates : t.Annotates) : t.stripAnnotations.uncommented = t.erase := by
  obtain ⟨parts, seated, tight⟩ := annotates
  refine @HasParts.inductionOn (fun t => (∀ n ∈ t.nodes, n.isSeated = true) → t.isLoose = false →
    t.stripAnnotations.uncommented = t.erase) ?_ t parts seated tight
  clear! t
  intro m kind slots parts ih seated tight
  have here := seated _ (mem_nodes_self _)
  have seatedBelow : ∀ slot ∈ slots, ∀ t ∈ slot, ∀ n ∈ t.nodes, n.isSeated = true :=
    (forall_nodes.mp seated).2
  have tightAt : ∀ {k : Nat} {slot : List Tree}, slots[k]? = some slot → (∀ u, admits kind k u = !u.isLoose) →
      ∀ t ∈ slot, t.stripAnnotations.uncommented = t.erase := by
    intro k slot isSlot asks t inSlot
    have isTight := asks t ▸ admits_of_isSeated here isSlot inSlot
    have member := List.mem_of_getElem? isSlot
    exact ih slot member t inSlot t (mem_nodes_self t) (seatedBelow slot member t inSlot) (by simpa using isTight)
  cases kind
  case annAssign simple =>
    obtain ⟨target, annotation, value, rfl⟩ := parts.declaration
    have ofTarget := List.map_congr_left (tightAt (k := 0) rfl fun _ => rfl)
    have ofValue := List.map_congr_left (tightAt (k := 2) rfl fun _ => rfl)
    rw [strip_declaration, erase_declaration, apply_ite uncommented, uncommented_node]
    simp only [List.map_cons, List.map_nil, List.map_map]
    rw [← ofTarget, ← ofValue]
    rfl
  case functionDef name isAsync comment =>
    obtain ⟨m', posOnly, args, variadic, keywordOnly, keywordDefaults, keywordVariadic, defaults, body, decorators,
      result, rfl, isParameter⟩ := parts.function
    have ofBody := List.map_congr_left (tightAt (k := 1) rfl fun _ => rfl)
    have ofDecorators := List.map_congr_left (tightAt (k := 2) rfl fun _ => rfl)
    -- The parameters are the one list that may be annotated, so they are no case of the induction.
    have ofSignature := signature_uncommented rfl (seatedBelow _ (.head _) _ (.head _)) (ih _ (.head _) _ (.head _))
    have noDeclaration : ∀ simple, Kind.functionDef name isAsync comment ≠ .annAssign simple := fun _ => nofun
    rw [strip_function, erase_node noDeclaration, uncommented_node]
    simp only [List.map_cons, List.map_nil, List.map_map, List.mapIdx_cons, List.mapIdx_nil, ofSignature]
    rw [← ofBody, ← ofDecorators]
    cases body with
    | nil => rfl
    | cons => simp [leave, Kind.annotates, bodySlot?, Kind.uncommented]
  case arg id comment =>
    obtain ⟨_, _, _, annotation, same⟩ := parameter_of_isSeated here rfl
    cases same
    cases annotation with
    | nil => rfl
    | cons t rest => cases tight
  case arguments =>
    refine strip_uncommented_plain (fun slot isSlot t inSlot => ?_) rfl fun _ => rfl
    exact ih slot isSlot t inSlot t (mem_nodes_self t) (seatedBelow slot isSlot t inSlot)
      (tight_of_arguments here tight isSlot inSlot)
  all_goals
    refine strip_uncommented_plain (fun slot isSlot t inSlot => ?_) rfl fun _ => rfl
    obtain ⟨k, atSlot⟩ := List.mem_iff_getElem?.mp isSlot
    exact tightAt atSlot (fun _ => rfl) t inSlot

/-! ## No annotation is left -/

theorem hasAnnotations_node (m : Mark) (kind : Kind) (slots : List (List Tree)) : (Tree.node m kind slots).hasAnnotations =
    ((Tree.node m kind slots).isAnnotated || slots.any fun slot => slot.any hasAnnotations) := by
  have all : ∀ ts : List Tree, hasAnnotationsAll ts = ts.any hasAnnotations := by
    intro ts
    induction ts with
    | nil => rfl
    | cons t rest ih => rw [hasAnnotationsAll, ih, List.any_cons]
  have each : ∀ slots : List (List Tree), hasAnnotationsSlots slots = slots.any fun slot => slot.any hasAnnotations := by
    intro slots
    induction slots with
    | nil => rfl
    | cons slot rest ih => rw [hasAnnotationsSlots, all, ih, List.any_cons]
  rw [hasAnnotations, each]

theorem hasAnnotations_eq_false : t.hasAnnotations = false ↔ ∀ n ∈ t.nodes, n.isAnnotated = false := by
  induction t using Tree.inductionOn with
  | node m kind slots ih =>
    rw [forall_nodes, hasAnnotations_node, Bool.or_eq_false_iff, List.any_eq_false]
    refine and_congr_right fun _ => forall₂_congr fun slot isSlot => ?_
    rw [Bool.not_eq_true, List.any_eq_false]
    exact forall₂_congr fun t inSlot => by rw [Bool.not_eq_true, ih slot isSlot t inSlot]

theorem slot_uncommented (m : Mark) (kind kind' : Kind) (slots : List (List Tree)) (k : Nat) :
    (Tree.node m kind' (slots.map (List.map uncommented))).slot k = ((Tree.node m kind slots).slot k).map uncommented := by
  simp only [slot, Tree.slots, List.getD_eq_getElem?_getD, List.getElem?_map]
  cases slots[k]? <;> rfl

theorem nodes_uncommented (t : Tree) : t.uncommented.nodes = t.nodes.map uncommented := by
  induction t using Tree.inductionOn with
  | node m kind slots ih =>
    rw [nodes_eq, nodes_eq, List.map_cons, uncommented_node]
    have below : ∀ t ∈ (Tree.node m kind slots).children, t.uncommented.nodes = t.nodes.map uncommented := by
      intro t isChild
      obtain ⟨slot, isSlot, inSlot⟩ := mem_children.mp isChild
      exact ih slot isSlot t inSlot
    have children : (Tree.node m kind.uncommented (slots.map (List.map uncommented))).children =
        (Tree.node m kind slots).children.map uncommented := List.map_flatten.symm
    rw [children, List.flatMap_map, List.map_flatMap]
    exact congrArg _ (List.flatMap_congr below)

theorem isAnnotated_uncommented (t : Tree) : t.uncommented.isAnnotated = t.isAnnotated := by
  obtain ⟨m, kind, slots⟩ := t
  rw [uncommented_node]
  cases kind
  case functionDef | arg =>
    simp only [Kind.uncommented, isAnnotated, Tree.kind]
    exact congrArg (!·) ((congrArg List.isEmpty (slot_uncommented ..)).trans List.isEmpty_map)
  all_goals rfl

theorem hasAnnotations_uncommented : t.uncommented.hasAnnotations = false ↔ t.hasAnnotations = false := by
  rw [hasAnnotations_eq_false, hasAnnotations_eq_false, nodes_uncommented, List.forall_mem_map]
  exact forall₂_congr fun n _ => by rw [isAnnotated_uncommented]

theorem mem_leave {k : Nat} {slot : List Tree} (inSlot : t ∈ leave kind k slot) : t ∈ slot ∨ t = passAt {} := by
  unfold leave at inSlot
  split at inSlot
  · cases inSlot
  · split at inSlot
    · exact .inr (List.mem_singleton.mp inSlot)
    · exact .inl inSlot

theorem forall_nodes_erase {motive : Tree → Prop} (parts : t.HasParts) (pass : ∀ m, motive (passAt m))
    (assign : ∀ m target value, motive (.node m (.assign none) [target, value]))
    (other : ∀ (m : Mark) (kind : Kind) (slots : List (List Tree)), (∀ simple, kind ≠ .annAssign simple) →
      motive (.node m kind.uncommented (slots.mapIdx (leave kind)))) : ∀ n ∈ t.erase.nodes, motive n := by
  have ofPass : ∀ m, ∀ n ∈ (passAt m).nodes, motive n := fun m n inside => by
    rw [nodes_eq] at inside
    rcases List.mem_cons.mp inside with rfl | inside
    · exact pass m
    · cases inside
  have ofSlot : ∀ {slot : List Tree}, (∀ t ∈ slot, ∀ n ∈ t.erase.nodes, motive n) →
      ∀ t ∈ slot.map erase, ∀ n ∈ t.nodes, motive n := fun each => List.forall_mem_map.mpr each
  refine @HasParts.inductionOn (fun t => ∀ n ∈ t.erase.nodes, motive n) ?_ t parts
  intro m kind slots parts ih
  have below : ∀ slot ∈ slots, ∀ t ∈ slot, ∀ n ∈ t.erase.nodes, motive n :=
    fun slot isSlot t inSlot => ih slot isSlot t inSlot t (mem_nodes_self t)
  by_cases isDeclaration : ∃ simple, kind = .annAssign simple
  · obtain ⟨simple, rfl⟩ := isDeclaration
    obtain ⟨target, annotation, value, rfl⟩ := parts.declaration
    rw [erase_declaration]
    split
    · exact ofPass m
    · refine forall_nodes.mpr ⟨assign _ _ _, fun slot isSlot => ?_⟩
      simp only [List.mem_cons, List.not_mem_nil, or_false] at isSlot
      rcases isSlot with rfl | rfl
      · exact ofSlot (below target (by simp))
      · exact ofSlot (below value (by simp))
  · have noDeclaration : ∀ simple, kind ≠ .annAssign simple := not_exists.mp isDeclaration
    rw [erase_node noDeclaration]
    refine forall_nodes.mpr ⟨other m kind _ noDeclaration, fun slot isSlot t inSlot => ?_⟩
    obtain ⟨k, short, rfl⟩ := List.mem_mapIdx.mp isSlot
    rcases mem_leave inSlot with inSlot | rfl
    · rw [List.getElem_map] at inSlot
      exact ofSlot (below _ (List.getElem_mem _)) t inSlot
    · exact ofPass {}

theorem slot_leave (m : Mark) (kind kind' : Kind) (slots : List (List Tree)) {k : Nat} (annotates : kind.annotates k = true) :
    (Tree.node m kind' (slots.mapIdx (leave kind))).slot k = [] := by
  simp only [slot, Tree.slots, List.getD_eq_getElem?_getD, List.getElem?_mapIdx]
  cases slots[k]? with
  | none => rfl
  | some slot => exact leave_of_annotates annotates slot

theorem HasParts.erase_unannotated (parts : t.HasParts) : t.erase.hasAnnotations = false := by
  refine hasAnnotations_eq_false.mpr (forall_nodes_erase parts (fun _ => rfl) (fun _ _ _ => rfl) ?_)
  intro m kind slots noDeclaration
  cases kind
  case annAssign simple => exact absurd rfl (noDeclaration simple)
  case functionDef | arg => exact congrArg (fun slot => !List.isEmpty slot) (slot_leave m _ _ slots rfl)
  all_goals rfl

/-! ## No body is left empty -/

theorem bodySlot?_uncommented (kind : Kind) : bodySlot? kind.uncommented = bodySlot? kind := by
  cases kind <;> rfl

theorem leave_body {k : Nat} (isBody : bodySlot? kind = some k) (slot : List Tree) : leave kind k slot ≠ [] := by
  have unannotated : kind.annotates k = false := by
    cases kind <;> cases isBody <;> rfl
  rw [leave, unannotated, isBody]
  split
  · contradiction
  · split
    · simp
    · rename_i filled
      simpa using filled

theorem filled_uncommented (filled : t.uncommented.Filled) : t.Filled := by
  unfold Filled at filled
  rw [nodes_uncommented, List.forall_mem_map] at filled
  intro n inside k isBody empty
  obtain ⟨m, kind, slots⟩ := n
  have body := filled _ inside k
  rw [uncommented_node] at body
  change slots[k]? = some [] at empty
  refine body ((bodySlot?_uncommented kind).symm ▸ isBody) ?_
  rw [Tree.slots, List.getElem?_map, empty]
  rfl

theorem HasParts.erase_filled (parts : t.HasParts) : t.erase.Filled := by
  refine forall_nodes_erase parts (fun _ => nofun) (fun _ _ _ => nofun) fun m kind slots _ k isBody empty => ?_
  rw [Tree.kind, bodySlot?_uncommented] at isBody
  rw [Tree.slots, List.getElem?_mapIdx, Option.map_eq_some_iff] at empty
  obtain ⟨slot, -, empty⟩ := empty
  exact leave_body isBody slot empty

/-! ## Stripping twice -/

theorem fillBody_twice (kind : Kind) (slots : List (List Tree)) : fillBody kind (fillBody kind slots) = fillBody kind slots := by
  unfold fillBody
  split
  · rw [List.modify_modify_eq]
    refine congrArg (slots.modify _) (funext fun body => ?_)
    cases body <;> rfl
  · rfl

theorem map_fillBody (kind : Kind) (slots : List (List Tree)) :
    (fillBody kind slots).map (List.map stripAnnotations) = fillBody kind (slots.map (List.map stripAnnotations)) := by
  unfold fillBody
  split
  · refine List.ext_getElem? fun k => ?_
    rw [List.getElem?_map, List.getElem?_modify, List.getElem?_modify, List.getElem?_map]
    cases slots[k]? with
    | none => rfl
    | some body => cases body <;> split <;> rfl
  · rfl

theorem map_twice {slot : List Tree} (each : ∀ t ∈ slot, t.stripAnnotations.stripAnnotations = t.stripAnnotations) :
    (slot.map stripAnnotations).map stripAnnotations = slot.map stripAnnotations := by
  rw [List.map_map]
  exact List.map_congr_left each

/-- A node without an annotation of its own is stripped once if its parts are. -/
theorem strip_twice_plain (isPlain : plain kind = true)
    (below : ∀ slot ∈ slots, ∀ t ∈ slot, t.stripAnnotations.stripAnnotations = t.stripAnnotations) :
    (Tree.node m kind slots).stripAnnotations.stripAnnotations = (Tree.node m kind slots).stripAnnotations := by
  have once : (slots.map (List.map stripAnnotations)).map (List.map stripAnnotations) = slots.map (List.map stripAnnotations) := by
    rw [List.map_map]
    exact List.map_congr_left fun slot isSlot => map_twice (below slot isSlot)
  rw [strip_plain isPlain, strip_plain isPlain, map_fillBody, once, fillBody_twice]

theorem signature_twice {posOnly args variadic keywordOnly keywordDefaults keywordVariadic defaults : List Tree} {p : Tree}
    (isSignature : p = .node m .arguments
      [posOnly, args, variadic, keywordOnly, keywordDefaults, keywordVariadic, defaults])
    (isParameter : ∀ p ∈ posOnly ++ args ++ variadic ++ keywordOnly ++ keywordVariadic, p.kind.isParameter = true)
    (within : ∀ u ∈ p.nodes, u.stripAnnotations.stripAnnotations = u.stripAnnotations) :
    stripSignature (stripSignature p.stripAnnotations).stripAnnotations = stripSignature p.stripAnnotations := by
  have parameters : ∀ ps keepComment, ps ⊆ posOnly ++ args ++ variadic ++ keywordOnly ++ keywordVariadic →
      (((ps.map stripAnnotations).map (stripParameter keepComment)).map stripAnnotations).map (stripParameter keepComment) =
      (ps.map stripAnnotations).map (stripParameter keepComment) := by
    intro ps keepComment listed
    simp only [List.map_map]
    refine List.map_congr_left fun q member => ?_
    have isArg := isParameter q (listed member)
    obtain ⟨m, kind, slots⟩ := q
    cases kind with
    | arg id comment => cases keepComment <;> rfl
    | _ => cases isArg
  have others : ∀ ts ∈ p.slots, (ts.map stripAnnotations).map stripAnnotations = ts.map stripAnnotations :=
    fun ts isSlot => map_twice fun t member =>
      within t (mem_nodes_of_child (List.mem_flatten.mpr ⟨ts, isSlot, member⟩) (mem_nodes_self t))
  subst isSignature
  rw [strip_plain rfl]
  simp only [fillBody, bodySlot?, List.map_cons, List.map_nil, stripSignature, stripParameters]
  rw [strip_plain rfl]
  simp only [fillBody, bodySlot?, List.map_cons, List.map_nil]
  rw [parameters posOnly, parameters args, parameters variadic, parameters keywordOnly, parameters keywordVariadic,
    others keywordDefaults (by simp [Tree.slots]), others defaults (by simp [Tree.slots])]
  all_goals intro t member; simp [member]

theorem HasParts.strip_twice (parts : t.HasParts) : t.stripAnnotations.stripAnnotations = t.stripAnnotations := by
  refine @HasParts.inductionOn (fun t => t.stripAnnotations.stripAnnotations = t.stripAnnotations) ?_ t parts
  intro m kind slots parts ih
  have below : ∀ slot ∈ slots, ∀ t ∈ slot, t.stripAnnotations.stripAnnotations = t.stripAnnotations :=
    fun slot isSlot t inSlot => ih slot isSlot t inSlot t (mem_nodes_self t)
  by_cases isPlain : plain kind = true
  · exact strip_twice_plain isPlain below
  cases kind <;> first | exact absurd rfl isPlain | skip
  case annAssign simple =>
    obtain ⟨target, annotation, value, rfl⟩ := parts.declaration
    rw [strip_declaration]
    split
    · rfl
    · rw [strip_plain rfl]
      simp only [fillBody, bodySlot?, List.map_cons, List.map_nil]
      rw [map_twice (below target (by simp)), map_twice (below value (by simp))]
  case functionDef name isAsync comment =>
    obtain ⟨m', posOnly, args, variadic, keywordOnly, keywordDefaults, keywordVariadic, defaults, body, decorators,
      result, rfl, isParameter⟩ := parts.function
    have ofSignature := signature_twice rfl isParameter (ih _ (.head _) _ (.head _))
    have ofBody := map_twice (below body (by simp))
    rw [strip_function, strip_function, map_twice (below decorators (by simp)), List.map_map]
    simp only [List.map_cons, List.map_nil, Function.comp_apply, ofSignature]
    cases body with
    | nil => rfl
    | cons first rest =>
      simp only [List.isEmpty_cons, Bool.false_eq_true, if_false, List.isEmpty_map] at ofBody ⊢
      rw [ofBody]

/-! ## Where nothing is annotated -/

theorem slot_of_annotates {k : Nat} {slot : List Tree} (annotates : kind.annotates k = true)
    (none : (Tree.node m kind slots).isAnnotated = false) (isSlot : slots[k]? = some slot) : slot = [] := by
  have here : (Tree.node m kind slots).slot k = slot := by
    rw [Tree.slot, Tree.slots, List.getD_eq_getElem?_getD, isSlot]
    rfl
  unfold Kind.annotates at annotates
  split at annotates
  · exact List.isEmpty_iff.mp (here ▸ by simpa [isAnnotated, Tree.kind] using none)
  · exact List.isEmpty_iff.mp (here ▸ by simpa [isAnnotated, Tree.kind] using none)
  · cases annotates

/-- Without annotations and empty bodies only type comments are lost. -/
theorem erase_of_unannotated (none : t.hasAnnotations = false) (filled : t.Filled) : t.erase = t.uncommented := by
  induction t using Tree.inductionOn with
  | node m kind slots ih =>
    obtain ⟨noneHere, noneBelow⟩ := forall_nodes.mp (hasAnnotations_eq_false.mp none)
    obtain ⟨filledHere, filledBelow⟩ := forall_nodes.mp filled
    have noDeclaration : ∀ simple, kind ≠ .annAssign simple := by
      rintro simple rfl
      cases noneHere
    rw [erase_node noDeclaration, uncommented_node]
    refine congrArg (Tree.node m kind.uncommented) (List.ext_getElem? fun k => ?_)
    rw [List.getElem?_mapIdx, List.getElem?_map, List.getElem?_map]
    cases isSlot : slots[k]? with
    | none => rfl
    | some slot =>
      have member := List.mem_of_getElem? isSlot
      have same : slot.map erase = slot.map uncommented := List.map_congr_left fun t inSlot =>
        ih slot member t inSlot (hasAnnotations_eq_false.mpr (noneBelow slot member t inSlot)) (filledBelow slot member t inSlot)
      refine congrArg some ((congrArg (leave kind k) same).trans ?_)
      cases annotates : kind.annotates k with
      | true =>
        rw [slot_of_annotates annotates noneHere isSlot]
        exact leave_of_annotates annotates _
      | false =>
        rw [leave, annotates, if_neg Bool.false_ne_true, if_neg]
        rintro ⟨isBody, empty⟩
        refine filledHere k isBody ?_
        rw [Tree.slots, isSlot, List.map_eq_nil_iff.mp empty]

theorem Annotates.strip_unannotated (annotates : t.Annotates) (none : t.hasAnnotations = false) (filled : t.Filled) :
    t.stripAnnotations.uncommented = t.uncommented :=
  annotates.strip_uncommented.trans (erase_of_unannotated none filled)

theorem Inert.unannotated (inert : t.Inert) (seated : ∀ n ∈ t.nodes, n.isSeated = true) (tight : t.isLoose = false) :
    t.hasAnnotations = false := by
  induction t using Tree.inductionOn with
  | node m kind slots ih =>
    obtain ⟨role, inertBelow⟩ := inert_node.mp inert
    obtain ⟨seatedHere, seatedBelow⟩ := forall_nodes.mp seated
    have noneHere : (Tree.node m kind slots).isAnnotated = false := by
      cases kind
      case arg id comment => exact (Bool.or_eq_false_iff.mp tight).1
      all_goals first | rfl | cases role
    refine hasAnnotations_eq_false.mpr (forall_nodes.mpr ⟨noneHere, fun slot isSlot t inSlot => ?_⟩)
    refine hasAnnotations_eq_false.mp (ih slot isSlot t inSlot (inertBelow slot isSlot t inSlot)
      (seatedBelow slot isSlot t inSlot) ?_)
    obtain ⟨k, atSlot⟩ := List.mem_iff_getElem?.mp isSlot
    have tightOf : admits kind k t = (!t.isLoose) → t.isLoose = false := fun asks => by
      have admitted := asks ▸ admits_of_isSeated seatedHere atSlot inSlot
      simpa using admitted
    cases kind
    case arguments => exact tight_of_arguments seatedHere tight isSlot inSlot
    case functionDef => cases role
    all_goals exact tightOf rfl

end Tree

/-! ## Macros without annotations -/

namespace Scan

open MacroExpand.Tree

variable {c : Context} {p u n : Tree} {d : Definition} {name : String}

theorem Context.typed_of_recognise (found : .definition d ∈ (c.recognise p u).1) (isFunction : u.kind.isFunction = true) :
    d.typed = u.hasAnnotations := by
  unfold recognise at found
  split at found
  · split at found
    · cases found
    · split at found
      · simp at found
      · have same := List.mem_singleton.mp found
        unfold define at same
        split at same
        · cases same
        · cases same
          rfl
  · rename_i isLambda
    rw [isLambda] at isFunction
    cases isFunction
  · cases found

/-- A statement of the function that runs for a lambda wraps an element of the lambda. -/
theorem mem_body_ofLambda {s : Tree} (inBody : s ∈ (ofLambda name u).slot 1) : ∃ m kind t,
    (kind = .exprStmt ∨ kind = .returnStmt) ∧ t ∈ ((u.part 1).slot 0).drop 1 ∧ s = .node m kind [[t]] := by
  rcases List.mem_append.mp inBody with effect | result
  · obtain ⟨t, member, rfl⟩ := List.mem_map.mp effect
    exact ⟨_, _, t, .inl rfl, (List.dropLast_sublist _).subset member, rfl⟩
  · obtain ⟨t, member, rfl⟩ := List.mem_map.mp result
    exact ⟨_, _, t, .inr rfl, List.mem_of_getLast? (Option.mem_toList.mp member), rfl⟩

theorem isSignature_first (parameters body decorators result body' decorators' result' : List Tree) :
    Kind.isSignature [parameters, body, decorators, result] = Kind.isSignature [parameters, body', decorators', result'] := by
  unfold Kind.isSignature
  split
  · rename_i same
    cases same
    rfl
  · rename_i other
    split
    · rename_i same
      cases same
      exact absurd rfl (other _ _ _ _ _ _ _ _ _ _ _)
    · rfl

/-- A node without an annotation, where annotations would stand where they stand in any text, and without an empty
body. -/
structure Bare (n : Tree) : Prop where
  parts : n.kind.hasParts n.slots = true
  seated : n.isSeated = true
  none : n.isAnnotated = false
  filled : ∀ k ∈ bodySlot? n.kind, n.slots[k]? ≠ some []

theorem bare_of_annotates (annotates : u.Annotates) (none : u.hasAnnotations = false) (filled : u.Filled) :
    ∀ n ∈ u.nodes, Bare n := fun n inside =>
  ⟨annotates.parts n inside, annotates.seated n inside, hasAnnotations_eq_false.mp none n inside, filled n inside⟩

theorem strip_of_bare (bare : ∀ n ∈ u.nodes, Bare n) (tight : u.isLoose = false) :
    u.stripAnnotations.uncommented = u.uncommented :=
  Annotates.strip_unannotated ⟨fun n inside => (bare n inside).parts, fun n inside => (bare n inside).seated, tight⟩
    (hasAnnotations_eq_false.mpr fun n inside => (bare n inside).none) fun n inside => (bare n inside).filled

theorem runnable_bare (isFunction : u.kind.isFunction = true) (bare : ∀ n ∈ u.nodes, Bare n) :
    ∀ n ∈ (runnable u).nodes, Bare n := by
  intro n inside
  rw [nodes_eq] at inside
  rcases List.mem_cons.mp inside with rfl | below
  · obtain ⟨parts, seated, none, filled⟩ := bare u (mem_nodes_self u)
    unfold runnable
    split
    case h_2 => exact ⟨parts, seated, none, filled⟩
    case h_1 m kind parameters body decorators result =>
      cases kind
      case functionDef name isAsync comment =>
        refine ⟨(isSignature_first ..).trans parts, ?_, none, fun k isBody => ?_⟩
        · simp only [isSeated, Tree.kind, Tree.slots, List.zipIdx_cons, List.all_cons, Bool.and_eq_true] at seated ⊢
          exact ⟨trivial, seated.2.1, seated.2.2.1, rfl, seated.2.2.2.2⟩
        · cases isBody
          exact filled 1 rfl
      all_goals cases isFunction
  · refine bare n (List.mem_of_mem_tail ((runnable_nodes u).subset ?_))
    rwa [nodes_eq]

theorem Context.tuple_of_opensLambda (opens : c.opensLambda u = true) :
    (∃ usage, (u.part 1).kind = .tuple usage) ∧ 2 ≤ ((u.part 1).slot 0).length := by
  unfold opensLambda at opens
  dsimp only at opens
  split at opens
  · rename_i usage isTuple
    exact ⟨⟨usage, isTuple⟩, of_decide_eq_true (Bool.and_eq_true_iff.mp opens).1⟩
  · cases opens

theorem tight_of_element (opens : c.opensLambda u = true) (bare : ∀ n ∈ u.nodes, Bare n) {t : Tree}
    (element : t ∈ (u.part 1).slot 0) : t.isLoose = false := by
  obtain ⟨usage, isTuple⟩ := (Context.tuple_of_opensLambda opens).1
  have isChild : u.part 1 ∈ u.children := (part_cases u 1).resolve_right fun absent => by
    rw [absent] at isTuple
    cases isTuple
  have seated := (bare _ (mem_nodes_of_child isChild (mem_nodes_self _))).seated
  rw [slot, List.getD_eq_getElem?_getD] at element
  cases isSlot : (u.part 1).slots[0]? with
  | none => simp [isSlot] at element
  | some slot =>
    rw [isSlot] at element
    have admitted := admits_of_isSeated seated isSlot element
    rw [isTuple] at admitted
    simpa [admits] using admitted

theorem ofLambda_bare (opens : c.opensLambda u = true) (isLambda : u.kind = .lambdaExpr) (bare : ∀ n ∈ u.nodes, Bare n) :
    ∀ n ∈ (ofLambda name u).nodes, Bare n := by
  have ofParts : ∀ t ∈ lambdaParts u, ∀ n ∈ t.nodes, Bare n := fun t member n below =>
    bare n ((lambdaParts_nodes u).subset (List.mem_flatMap.mpr ⟨t, member, below⟩))
  intro n inside
  rw [nodes_eq] at inside
  rcases List.mem_cons.mp inside with rfl | inside
  · refine ⟨?_, ?_, rfl, fun k isBody => ?_⟩
    · have seated := (bare u (mem_nodes_self u)).seated
      rw [isSeated, isLambda, Bool.and_eq_true] at seated
      exact (isSignature_first ..).trans seated.1
    · have tight : ∀ s ∈ (ofLambda name u).slot 1, s.isLoose = false := by
        intro s inBody
        obtain ⟨m, kind, v, wraps, -, rfl⟩ := mem_body_ofLambda inBody
        rcases wraps with rfl | rfl <;> rfl
      rw [isSeated, Bool.and_eq_true, List.all_eq_true]
      refine ⟨rfl, fun entry member => List.all_eq_true.mpr fun s inSlot => ?_⟩
      obtain ⟨slot, k⟩ := entry
      have atSlot : (ofLambda name u).slots[k]? = some slot := List.mem_zipIdx_iff_getElem?.mp member
      rcases k with _ | _ | _ | _ | k <;> cases atSlot
      · rfl
      · exact congrArg (!·) (tight s inSlot)
      · cases inSlot
      · cases inSlot
    · cases isBody
      have several := (Context.tuple_of_opensLambda opens).2
      intro empty
      have noResult := (List.append_eq_nil_iff.mp (Option.some.inj empty)).2
      simp only [List.map_eq_nil_iff, Option.toList_eq_nil_iff, List.getLast?_eq_none_iff, List.drop_eq_nil_iff] at noResult
      omega
  obtain ⟨t, isChild, inside⟩ := List.mem_flatMap.mp inside
  have inSlots : t ∈ u.slot 0 ∨ t ∈ (ofLambda name u).slot 1 := by
    simpa [ofLambda, children, Tree.slots, slot] using isChild
  rcases inSlots with parameter | inBody
  · exact ofParts t (List.mem_append_left _ parameter) n inside
  · obtain ⟨m, kind, v, wraps, element, rfl⟩ := mem_body_ofLambda inBody
    rw [nodes_eq] at inside
    rcases List.mem_cons.mp inside with rfl | inside
    · have tight := tight_of_element opens bare ((List.drop_sublist _ _).subset element)
      rcases wraps with rfl | rfl <;>
      · refine ⟨rfl, ?_, rfl, fun k isBody => by cases isBody⟩
        simpa [isSeated, Tree.kind, Tree.slots, admits] using tight
    · exact ofParts v (List.mem_append_right _ element) n (by simpa [children, Tree.slots] using inside)

/-- A macro that a scan takes for untyped has nothing to strip but type comments. -/
theorem strip_untyped {t : Tree} (formed : t.WellFormed) (annotates : t.Annotates) (filled : t.Filled) {path directive : Text}
    {lines : List Text} {scan : Scan} (scanned : (scanTree path directive lines t).2 = .ok scan)
    (member : d ∈ scan.definitions) (untyped : d.typed = false) :
    d.tree.stripAnnotations.uncommented = d.tree.uncommented := by
  obtain ⟨p, u, e, calls, reached, here, rfl⟩ := recognised_of_scanTree scanned d member
  have inside : ∀ n ∈ u.nodes, n ∈ t.nodes := fun n below => mem_nodes_trans reached.mem_nodes below
  have within : u.hasAnnotations = false → u.isLoose = false → ∀ n ∈ u.nodes, Bare n := fun none tight =>
    bare_of_annotates ⟨annotates.parts.of_mem reached.mem_nodes, fun n below => annotates.seated n (inside n below), tight⟩
      none fun n below => filled n (inside n below)
  cases (Context.defines_of_recognise here).1 with
  | @function isAsync comment isFunction opens noMethod statement tree =>
    have isFunction' : u.kind.isFunction = true := by
      rw [isFunction]
      rfl
    have none := (Context.typed_of_recognise here isFunction').symm.trans untyped
    have tight : ∀ v : Tree, v.kind = u.kind → v.isLoose = false := fun v same => by
      simp [isLoose, isTypedParameter, same, isFunction, Kind.isParameter]
    refine tree ▸ strip_of_bare (runnable_bare isFunction' (within none (tight u rfl))) (tight _ (runnable_mark u).2)
  | lambda isLambda opens bound statement tree =>
    have tight : u.isLoose = false := by
      simp [isLoose, isTypedParameter, isLambda, Kind.isParameter]
    have inert : u.Inert := (formed.of_mem reached.mem_nodes).inert (by
      rw [isLambda]
      rfl)
    have none := inert.unannotated (fun n below => annotates.seated n (inside n below)) tight
    exact tree ▸ strip_of_bare (ofLambda_bare opens isLambda (within none tight)) rfl

end Scan

namespace Sandbox

open MacroExpand.Tree

/-- Whether stripping is left out makes no difference to a program, up to type comments, if it makes none to the tree. -/
theorem programOf_untyped {d : Definition} (untyped : d.typed = false)
    (same : d.tree.stripAnnotations.uncommented = d.tree.uncommented) (settings : Settings) (arguments : Text) (line : Nat) :
    (programOf settings d arguments line).map (List.map uncommented) =
      (programOf settings { d with typed := true } arguments line).map (List.map uncommented) := by
  unfold programOf
  cases parseExpression (d.name.toList ++ arguments) with
  | error fault => rfl
  | ok call =>
    rw [untyped]
    cases settings.stripAnnotations with
    | false => rfl
    | true => exact congrArg (fun function => Except.ok (function :: _)) same.symm

end Sandbox

namespace Tree

/-- Stripping erases the annotations of a tree and leaves none; no body is empty behind it, and stripping again changes
nothing.  Where nothing is annotated and no body empty, only type comments are lost, so the program of a macro that a
scan takes for untyped is the same whether stripping is left out or not. -/
theorem stripped_exactly {t : Tree} (annotates : t.Annotates) :
    t.stripAnnotations.uncommented = t.erase ∧ t.stripAnnotations.hasAnnotations = false ∧ t.stripAnnotations.Filled ∧
    t.stripAnnotations.stripAnnotations = t.stripAnnotations ∧
    (t.hasAnnotations = false → t.Filled → t.stripAnnotations.uncommented = t.uncommented) ∧
    (t.WellFormed → t.Filled → ∀ path directive lines scan, (scanTree path directive lines t).2 = .ok scan →
      ∀ d ∈ scan.definitions, d.typed = false → ∀ settings arguments line,
        (Sandbox.programOf settings d arguments line).map (List.map uncommented) =
          (Sandbox.programOf settings { d with typed := true } arguments line).map (List.map uncommented)) := by
  have erased := annotates.strip_uncommented
  refine ⟨erased, hasAnnotations_uncommented.mp (erased ▸ annotates.parts.erase_unannotated),
    filled_uncommented (erased ▸ annotates.parts.erase_filled), annotates.parts.strip_twice,
    annotates.strip_unannotated, fun formed filled path directive lines scan scanned d member untyped => ?_⟩
  exact Sandbox.programOf_untyped untyped (Scan.strip_untyped formed annotates filled scanned member untyped)

/-- A function with annotations of every sort. -/
def typedFunction : Tree :=
  let int := Tree.node {} (.name "int" .load) []
  let declared := fun id => Tree.node {} (.name id .store) []
  .node {} (.functionDef "f" false none) [
    [.node {} .arguments [[], [.node {} (.arg "a" none) [[int]]], [.node {} (.arg "rest" none) [[int]]], [], [], [], []]],
    [.node {} (.annAssign true) [[declared "b"], [int], [.node {} (.name "a" .load) []]],
      .node {} (.annAssign true) [[declared "c"], [int], []]], [], [int]]

/-- A file with a macro without annotations. -/
def untypedFile : Tree :=
  .node {} (.module []) [[functionOf "m" [.node {} .exprStmt [[.node {} (.constant (.str (chars "use macro")) false) []]],
    .node {} .pass []]]]

theorem stripped_exactly_typed : typedFunction.Annotates ∧ typedFunction.stripAnnotations.hasAnnotations = false ∧
    untypedFile.Annotates ∧ untypedFile.stripAnnotations.uncommented = untypedFile.uncommented ∧
    ∃ scan, (scanTree [] (chars "use macro") [] untypedFile).2 = .ok scan ∧ ∃ d ∈ scan.definitions,
      (Sandbox.programOf {} d ['(', ')'] 1).map (List.map uncommented) =
        (Sandbox.programOf {} { d with typed := true } ['(', ')'] 1).map (List.map uncommented) := by
  have typed : typedFunction.Annotates := by decide
  have untyped : untypedFile.Annotates := by decide
  have formed : untypedFile.WellFormed := by decide
  have filled : untypedFile.Filled := by decide
  obtain ⟨-, -, -, -, unchanged, programs⟩ := stripped_exactly untyped
  refine ⟨typed, (stripped_exactly typed).2.1, untyped, unchanged rfl filled, _, rfl, _, .head _, ?_⟩
  exact programs formed filled [] (chars "use macro") [] _ rfl _ (.head _) rfl {} ['(', ')'] 1

/-- A file without anything in it. -/
def emptyFile : Tree := .node {} (.module []) [[]]

/-- An empty file has no annotations, but it gets a statement. -/
theorem empty_file_grows : emptyFile.Annotates ∧ emptyFile.hasAnnotations = false ∧
    emptyFile.stripAnnotations.uncommented ≠ emptyFile.uncommented := by
  refine ⟨by decide, rfl, fun same => ?_⟩
  have longer := congrArg (fun t => (t.slot 0).length) same
  cases longer

end Tree

end MacroExpand
