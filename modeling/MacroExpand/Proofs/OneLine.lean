import MacroExpand.Proofs.Breaks
import MacroExpand.Proofs.Reducing
import MacroExpand.Proofs.Rendering

/-!
# What the characters of an expression are

An expression is made of scalars, which are written with printable characters only, of signs between them, and of
names as they are: those of classes, of members of enumerations and of keyword arguments.  So all its characters are
printable or come from a name, and it is on one line if no line ends in a name.
-/

set_option autoImplicit false

namespace MacroExpand

open Text (Flat)

/-! ## Characters of one kind -/

namespace Text

def Of (p : Char → Prop) (text : Text) : Prop := ∀ c ∈ text, p c

abbrev Printable (text : Text) : Prop := Of (fun c => isPrintable c = true) text

namespace Of

variable {p q : Char → Prop} {a b : Text} {c : Char}

theorem nil : Of p [] := List.forall_mem_nil p

theorem cons (first : p c) (rest : Of p a) : Of p (c :: a) := List.forall_mem_cons.mpr ⟨first, rest⟩

theorem append (first : Of p a) (second : Of p b) : Of p (a ++ b) := List.forall_mem_append.mpr ⟨first, second⟩

theorem imp (all : Of p a) (weaker : ∀ c, p c → q c) : Of q a := fun c member => weaker c (all c member)

theorem of_all (all : a.all isPrintable = true) : Printable a := List.all_eq_true.mp all

theorem commaList (comma : p ',') (space : p ' ') {parts : List Text} (all : ∀ part ∈ parts, Of p part) :
    Of p (MacroExpand.commaList parts) := by
  induction parts with
  | nil => exact nil
  | cons first rest ih =>
    have later := ih fun part member => all part (.tail _ member)
    cases rest with
    | nil => simpa [MacroExpand.commaList, joinWith, List.intercalate] using all first (.head _)
    | cons second rest =>
      rw [commaList_cons]
      exact append (all first (.head _)) (append (cons comma (cons space nil)) later)

theorem flat (all : Of (fun c => c ≠ '\n' ∧ c ≠ '\r') a) : Flat a :=
  ⟨fun feed => (all _ feed).1 rfl, fun back => (all _ back).2 rfl⟩

end Of

theorem plain_of_isPrintable (c : Char) (printable : isPrintable c = true) : c ≠ '\n' ∧ c ≠ '\r' := by
  constructor
  all_goals
    rintro rfl
    exact absurd printable (by decide)

end Text

open Text (Of Printable)

/-! ## Scalars -/

theorem printable_digits {base : Nat} (big : 1 < base) (small : base ≤ 16) (n : Nat) :
    Printable (Nat.toDigits base n) := by
  intro c member
  obtain ⟨k, below, rfl⟩ := mem_toDigits base big member
  have digits : ∀ k < 16, isPrintable (Nat.digitChar k) = true := by decide
  exact digits k (by omega)

theorem printable_intText (n : Int) : Printable (intText n) := by
  unfold intText
  split
  · exact .cons (by decide) (printable_digits (by decide) (by decide) _)
  · exact printable_digits (by decide) (by decide) _

namespace Scalar

theorem printable_floatText (d : Double) : Printable (text.floatText d) := by
  unfold text.floatText
  split
  · exact .of_all (by decide)
  · split <;> exact .of_all (by decide)
  · rename_i m q finite
    obtain ⟨form, isText⟩ := text_finite d m q finite
    have body : Printable d.body := fun c member => (printable_double form c member).1
    rw [isText]
    split
    · exact .cons (by decide) body
    · exact body

theorem printable_text (s : Scalar) : Printable s.text := by
  cases s with
  | nil => exact (Of.of_all (by decide) : Printable (chars "None"))
  | ellipsis => exact (Of.of_all (by decide) : Printable (chars "..."))
  | bool b =>
    cases b with
    | true => exact (Of.of_all (by decide) : Printable (chars "True"))
    | false => exact (Of.of_all (by decide) : Printable (chars "False"))
  | int n =>
    rw [Sandbox.int_text]
    split
    · exact printable_intText n
    · exact .append (.append (.of_all (by decide)) (written_text _).printable) (.of_all (by decide))
  | float d => exact printable_floatText d
  | complex re im =>
    rw [Sandbox.complex_text]
    exact .append (.append (.append (.append (.of_all (by decide)) (printable_floatText re)) (.of_all (by decide)))
      (printable_floatText im)) (.of_all (by decide))
  | str s => exact (written_text s).printable
  | codes s => exact (written_codes s).printable
  | bytes b => exact (written_bytes b).printable

end Scalar

/-! ## Recipes -/

structure Recipe.Names (p : Char → Prop) (recipe : Recipe) : Prop where
  qualname : Of p recipe.qualname.toList
  keywords : ∀ e ∈ recipe.kwargs, Of p e.1.toList

section Rendering

variable {p : Char → Prop} (plain : ∀ c, isPrintable c = true → p c)

include plain

theorem Text.Of.chars {text : Text} (all : text.all isPrintable = true) : Of p text := (Of.of_all all).imp plain

theorem Recipe.Names.target {recipe : Recipe} (names : recipe.Names p) : Of p recipe.target := by
  have quoted : ∀ text : Text, Of p text.quoted := fun text => Of.imp (written_text text).printable plain
  unfold Recipe.target
  split
  · exact names.qualname
  · refine .append (.append (.append (.chars plain (by decide)) ?_) (.chars plain (by decide))) names.qualname
    split
    · exact .append (.append (.append (quoted _) (.chars plain (by decide))) (quoted _)) (.chars plain (by decide))
    · exact quoted _

/-! ## Expressions -/

namespace Survey

variable {s : Survey} {fails : SerializeError → Prop}

omit plain in
theorem settles_parts {α : Type} {render : α → Except SerializeError Text} {build : List Text → Text} {xs : List α}
    (each : ∀ x ∈ xs, Settles (Of p) fails (render x)) (built : ∀ texts, (∀ text ∈ texts, Of p text) → Of p (build texts)) :
    Settles (Of p) fails (do return build (← xs.mapM render)) :=
  (Settles.mapM each).bind built

theorem settles_layout {i : Nat} {render : Value → Except SerializeError Text}
    (names : ∀ i recipe, s.recipe? i = some recipe → recipe.Names p) (refused : ∀ cls state, fails (refusal cls state))
    (each : ∀ v, Settles (Of p) fails (render v)) : Settles (Of p) fails (s.layout i render) := by
  have sign : ∀ {text : Text}, text.all isPrintable = true → Of p text := Text.Of.chars plain
  have row : ∀ {texts : List Text}, (∀ text ∈ texts, Of p text) → Of p (commaList texts) :=
    Of.commaList (plain _ (by decide)) (plain _ (by decide))
  have bracketed : ∀ (first last : Char) (texts : List Text), isPrintable first = true → isPrintable last = true →
      (∀ text ∈ texts, Of p text) → Of p (first :: (commaList texts ++ [last])) :=
    fun first last texts opens closes all =>
      .cons (plain first opens) (.append (row all) (.cons (plain last closes) .nil))
  unfold layout
  split
  · exact settles_parts (fun v _ => each v) fun texts => bracketed _ _ texts (by decide) (by decide)
  · rename_i item _
    exact (each item).bind fun text all => Of.cons (plain _ (by decide)) (.append all (sign (by decide)))
  · exact settles_parts (fun v _ => each v) fun texts => bracketed _ _ texts (by decide) (by decide)
  · refine settles_parts (fun entry _ => (each entry.1).bind fun key isKey => (each entry.2).bind fun value isValue => ?_)
      fun texts => bracketed _ _ texts (by decide) (by decide)
    exact .append isKey (.cons (plain _ (by decide)) (.cons (plain _ (by decide)) isValue))
  · exact sign (by decide)
  · exact settles_parts (fun v _ => each v) fun texts => bracketed _ _ texts (by decide) (by decide)
  · exact sign (by decide)
  · exact settles_parts (fun v _ => each v) fun texts all => .append (.append (sign (by decide)) (row all)) (sign (by decide))
  · rename_i cls state _
    split
    · exact refused cls state
    · rename_i recipe known
      have spelled := names i recipe known
      split
      · exact spelled.target plain
      · rename_i args
        refine (Settles.mapM fun v _ => each v).bind fun texts positional => ?_
        refine settles_parts (fun e isKeyword => (each e.2).bind fun text all => ?_) fun keywords byName => ?_
        · exact .append (spelled.keywords e isKeyword) (.cons (plain _ (by decide)) all)
        · refine .append (spelled.target plain) (bracketed _ _ _ (by decide) (by decide) ?_)
          exact List.forall_mem_append.mpr ⟨positional, byName⟩

theorem of_paramName {shared : List Nat} {i : Nat} {name : Text} (isParameter : paramName shared i = some name) :
    Of p name := by
  obtain ⟨k, -, rfl⟩ := Sandbox.parameter_text isParameter
  exact Of.imp (Sandbox.wordForm_parameter k).printable plain

theorem settles_render (names : ∀ i recipe, s.recipe? i = some recipe → recipe.Names p)
    (refused : ∀ cls state, fails (refusal cls state)) (tooDeep : fails .tooDeep) (shared : List Nat) (depth : Nat)
    (v : Value) : Settles (Of p) fails (s.render shared depth v) := by
  induction depth generalizing v with
  | zero =>
    cases v with
    | scalar x => exact x.printable_text.imp plain
    | ref i => exact tooDeep
  | succ depth ih =>
    cases v with
    | scalar x => exact x.printable_text.imp plain
    | ref i =>
      rw [render]
      split
      · rename_i name isParameter
        exact of_paramName plain isParameter
      · exact settles_layout plain names refused ih

theorem settles_fill (names : ∀ i recipe, s.recipe? i = some recipe → recipe.Names p)
    (refused : ∀ cls state, fails (refusal cls state)) (tooDeep : fails .tooDeep) (shared : List Nat) (depth i : Nat) :
    Settles (fun fill => ∀ text ∈ fill, Of p text) fails (s.fill shared depth i) := by
  have name : Of p ((paramName shared i).getD []) := by
    cases isParameter : paramName shared i with
    | none => exact .nil
    | some name => exact of_paramName plain isParameter
  have content : Settles (Of p) fails (s.layout i (s.render shared depth)) :=
    settles_layout plain names refused (settles_render plain names refused tooDeep shared depth)
  have filled : ∀ call : Text, call.all isPrintable = true → Settles (fun fill => ∀ text ∈ fill, Of p text) fails (do
      return some ((paramName shared i).getD [] ++ call ++ (← s.layout i (s.render shared depth)) ++ [')'])) := by
    intro call printable
    refine content.bind fun text all => ?_
    rintro _ ⟨⟩
    exact .append (.append (.append name (.chars plain printable)) all) (.chars plain (by decide))
  unfold fill
  dsimp only
  split
  · exact nofun
  · exact nofun
  · exact nofun
  · exact filled _ (by decide)
  · exact filled _ (by decide)

theorem settles_expression (names : ∀ i recipe, s.recipe? i = some recipe → recipe.Names p)
    (refused : ∀ cls state, fails (refusal cls state)) (tooDeep : fails .tooDeep) (depth : Nat) (root : Value) :
    Settles (Of p) fails (s.expression depth root) := by
  have sign : ∀ {text : Text}, text.all isPrintable = true → Of p text := Text.Of.chars plain
  have row : ∀ {texts : List Text}, (∀ text ∈ texts, Of p text) → Of p (commaList texts) :=
    Of.commaList (plain _ (by decide)) (plain _ (by decide))
  unfold expression
  dsimp only
  refine (settles_render plain names refused tooDeep _ depth root).bind fun body isBody => ?_
  split
  · exact isBody
  · refine (Settles.mapM fun i _ => settles_fill plain names refused tooDeep _ depth i).bind fun fills filled => ?_
    have params : Of p (commaList (s.shared.filterMap (paramName s.shared))) := by
      refine row fun text member => ?_
      obtain ⟨i, -, isParameter⟩ := List.mem_filterMap.mp member
      exact of_paramName plain isParameter
    have inits : Of p (commaList (s.shared.map s.emptyText)) := by
      refine row fun text member => ?_
      obtain ⟨i, -, rfl⟩ := List.mem_map.mp member
      unfold emptyText
      split <;> exact sign (by decide)
    have statements : ∀ text ∈ fills.filterMap id, Of p text := by
      intro text member
      obtain ⟨fill, isFill, isText⟩ := List.mem_filterMap.mp member
      exact filled fill isFill text isText
    have inner : Of p (if (fills.filterMap id).isEmpty then body
        else '(' :: (commaList (fills.filterMap id ++ [body]) ++ chars ")[-1]")) := by
      split
      · exact isBody
      · exact .cons (plain _ (by decide)) (.append (row (List.forall_mem_append.mpr
          ⟨statements, List.forall_mem_singleton.mpr isBody⟩)) (sign (by decide)))
    exact .append (.append (.append (.append (.append (.append (sign (by decide)) params) (sign (by decide))) inner)
      (sign (by decide))) inits) (sign (by decide))

end Survey

end Rendering

/-! ## Names that a scan meets -/

def State.keywords : State → List String
  | .rebuilt recipe => recipe.kwargs.map Prod.fst
  | _ => []

def Object.Names (p : Char → Prop) : Object → Prop
  | .inst cls state => Of p (state.rebuiltBy cls).qualname.toList ∧ ∀ name ∈ state.keywords, Of p name.toList
  | _ => True

/-- All characters of the names that a scan has met are of some kind. -/
structure Survey.Names (p : Char → Prop) (s : Survey) : Prop where
  objects : s.graph.Behind 0 (Object.Names p)
  recipes : ∀ e ∈ s.recipes, e.2.Names p

theorem FreshRecipe.names_alloc (fresh : FreshRecipe) (graph : Graph) :
    (fresh.alloc graph).2.qualname = fresh.qualname ∧
      ∀ e ∈ (fresh.alloc graph).2.kwargs, e.1 ∈ fresh.kwargs.map Prod.fst := by
  unfold FreshRecipe.alloc
  constructor
  · rfl
  · exact fun e member => (List.of_mem_zip member).1

namespace Survey.Names

variable {p : Char → Prop} {s : Survey}

theorem recipe (names : s.Names p) (i : Nat) (recipe : Recipe) (known : s.recipe? i = some recipe) : recipe.Names p := by
  obtain ⟨e, isRecipe, rfl⟩ := Option.map_eq_some_iff.mp known
  exact names.recipes e (List.mem_of_find?_eq_some isRecipe)

theorem builds (p : Char → Prop) : Fresh.Builds 0 (Object.Names p) (fun _ => True) where
  scalar := fun _ => trivial
  new := fun _ _ => trivial
  container := by
    intro object noInst _
    cases object with
    | inst cls state => exact absurd rfl (noInst cls state)
    | _ => trivial

variable (plain : ∀ c, isPrintable c = true → p c)

include plain

theorem withReduction (names : s.Names p) {i : Nat} {cls : Class} {state : State} {fresh : FreshRecipe}
    (isInst : s.object i = .inst cls state) (answer : Reducer.standard cls state = .ok (some fresh)) :
    (Tracks.withReduction s i (fresh.alloc s.graph)).Names p := by
  have spelled : Object.Names p (.inst cls state) := by
    rw [← isInst, Survey.object, Array.getD_eq_getD_getElem?]
    cases found : s.graph[i]? with
    | none => trivial
    | some object => exact names.objects i object (Nat.zero_le i) found
  have parts := Reducer.partsOf_standard answer
  obtain ⟨objects, -, -⟩ := fresh.alloc_behind (builds p) (Nat.zero_le _) names.objects (fun _ _ => trivial) (by
    intro e member
    rcases parts.instances e member with ⟨u, rfl⟩ | ⟨b, rfl⟩
    · exact ⟨.chars plain (by decide : Class.url.name.qualname.toList.all isPrintable = true), fun _ none => by cases none⟩
    · exact ⟨.chars plain (by decide : Class.bytearray.name.qualname.toList.all isPrintable = true), fun _ none => by cases none⟩)
  obtain ⟨qualname, keywords⟩ := fresh.names_alloc s.graph
  refine ⟨objects, List.forall_mem_cons.mpr ⟨⟨?_, fun e member => ?_⟩, names.recipes⟩⟩
  · have named : fresh.qualname = (state.rebuiltBy cls).qualname :=
      congrArg ClassName.qualname (Reducer.named_standard answer)
    rw [qualname, named]
    exact spelled.1
  · obtain ⟨e', isKeyword, same⟩ := List.mem_map.mp (keywords e member)
    rw [← same]
    rcases Reducer.keywords_standard answer e' isKeyword with known | ⟨recipe, rfl, own⟩
    · have all : ∀ word ∈ ["headers", "content", "extensions", "request"], word.toList.all isPrintable = true := by decide
      exact .chars plain (all _ known)
    · exact spelled.2 _ own

theorem kept : Survey.Kept Registry.standard (Survey.Names p) (fun _ => True) (fun _ => True) where
  noted := fun _ _ _ names => ⟨names.objects, names.recipes⟩
  cyclic := fun _ => trivial
  tooDeep := trivial
  entered := by
    intro s i names _
    have enters := s.enters Registry.standard i
    generalize s.children Registry.standard i = result at enters
    cases enters with
    | plain | again => exact ⟨names, fun _ _ => trivial⟩
    | fails | refuses => trivial
    | reduces isInst answer =>
      rcases Registry.reduce_standard_cases _ _ with same | none
      · exact ⟨names.withReduction plain isInst (same ▸ answer), fun _ _ => trivial⟩
      · rw [none] at answer
        cases answer

end Survey.Names

theorem of_scan {p : Char → Prop} (plain : ∀ c, isPrintable c = true → p c) {registry : Registry} {limit : Nat}
    {graph : Graph} {root : Value} {text : Text}
    (scanned : Settles (fun s => ∀ i recipe, s.recipe? i = some recipe → recipe.Names p) (fun _ => True)
      (Survey.scan registry limit [] { graph } root))
    (written : uneval registry limit graph root = .ok text) : Of p text := by
  unfold uneval at written
  cases result : Survey.scan registry limit [] { graph } root with
  | error e =>
    rw [result] at written
    cases written
  | ok s =>
    rw [result] at written scanned
    dsimp only at written
    have settles : Settles (Of p) (fun _ => True) (s.expression limit root) :=
      Survey.settles_expression plain scanned (fun _ _ => trivial) trivial limit root
    rw [written] at settles
    exact settles

theorem of_uneval {p : Char → Prop} (plain : ∀ c, isPrintable c = true → p c) {graph : Graph}
    (names : ∀ object ∈ graph, object.Names p) {limit : Nat} {root : Value} {text : Text}
    (written : uneval Registry.standard limit graph root = .ok text) : Of p text := by
  have start : Survey.Names p { graph } :=
    ⟨fun i object _ found => names object (Array.mem_of_getElem? found), nofun⟩
  have scanned : Settles (Survey.Names p) (fun _ => True) (Survey.scan Registry.standard limit [] { graph } root) :=
    (Survey.Names.kept plain).scan limit [] start trivial
  exact of_scan plain (scanned.mono (fun _ named => named.recipe) fun _ fails => fails) written

/-! ## Values without instances -/

/-- Only scalars and containers can be reached from a value. -/
def NoInstances (graph : Graph) (root : Value) : Prop :=
  ∀ i cls state, Reaches graph root (.ref i) → graph[i]? ≠ some (.inst cls state)

theorem NoInstances.kept {graph : Graph} {root : Value} (none : NoInstances graph root) (registry : Registry) :
    Survey.Kept registry (fun s => s.graph = graph ∧ s.recipes = []) (Reaches graph root) (fun _ => True) where
  noted := fun _ _ _ unreduced => unreduced
  cyclic := fun _ => trivial
  tooDeep := trivial
  entered := by
    rintro s i ⟨rfl, unreduced⟩ reached
    have isObject : ∀ object, s.object i = object → s.graph[i]? = some object ∨ object = .tuple [] := by
      rintro object rfl
      rw [Survey.object, Array.getD_eq_getD_getElem?]
      cases s.graph[i]? with
      | none => exact .inr rfl
      | some object => exact .inl rfl
    have noInst : ∀ cls state, s.object i ≠ .inst cls state := by
      intro cls state isInst
      rcases isObject _ isInst with found | empty
      · exact none i cls state reached found
      · cases empty
    have enters := s.enters registry i
    generalize s.children registry i = result at enters
    cases enters with
    | plain =>
      refine ⟨⟨rfl, unreduced⟩, fun v inside => ?_⟩
      rcases isObject _ rfl with found | empty
      · exact reached.element found inside
      · rw [empty] at inside
        cases inside
    | again isInst | fails isInst | refuses isInst | reduces isInst => exact absurd isInst (noInst _ _)

/-- A value without instances is written with printable characters only, whatever its texts and bytes hold. -/
theorem printable_uneval {registry : Registry} {limit : Nat} {graph : Graph} {root : Value} {text : Text}
    (none : NoInstances graph root) (written : uneval registry limit graph root = .ok text) : Printable text := by
  have start : ({ graph } : Survey).graph = graph ∧ ({ graph } : Survey).recipes = [] := ⟨rfl, rfl⟩
  have scanned := (none.kept registry).scan limit [] start .root
  refine of_scan (fun _ printable => printable) (scanned.mono (fun s unreduced i recipe known => ?_) fun _ fails => fails)
    written
  rw [Survey.recipe?, unreduced.2] at known
  cases known

end MacroExpand
