import MacroExpand.Proofs.ScalarTexts

/-!
# Containers as expressions

The text of a container is a display of the texts of its elements, or a call around one.  By
induction on the depth of the rendering, the text of a value makes a copy of it: objects that have a
place are written by name and copied by their place, all others are laid out where they stand.
-/

set_option autoImplicit false

namespace MacroExpand

open MacroExpand.Parser MacroExpand.Sandbox

/-! ## Plain values -/

/-- The values that can be reached from a value along elements of containers. -/
inductive Reaches (graph : Graph) (root : Value) : Value → Prop where
  | root : Reaches graph root root
  | element {i : Nat} {object : Object} {v : Value} (outer : Reaches graph root (.ref i))
      (found : graph[i]? = some object) (inside : v ∈ object.elements) : Reaches graph root v

theorem Reaches.trans {graph : Graph} {a b c : Value} (first : Reaches graph a b)
    (second : Reaches graph b c) : Reaches graph a c := by
  induction second with
  | root => exact first
  | element _ found inside ih => exact .element ih found inside

/-- Keys that can be keys and are pairwise unequal. -/
structure DistinctKeys (graph : Graph) (keys : List Value) : Prop where
  hashable : ∀ key ∈ keys, Hashable graph key
  unlike : keys.Pairwise graph.Unlike

def Object.Plain (graph : Graph) : Object → Prop
  | .list _ | .tuple _ => True
  | .dict entries => DistinctKeys graph (entries.map Prod.fst)
  | .set items | .frozenset items => DistinctKeys graph items
  | .inst _ _ => False

/-- A scalar whose finite doubles read back, or a plain container. -/
def Value.Plain (graph : Graph) : Value → Prop
  | .scalar s => s.ReadsBack
  | .ref i => ∃ object, graph[i]? = some object ∧ object.Plain graph

/-- Everything that can be reached from a value is plain. -/
def PlainFrom (graph : Graph) (root : Value) : Prop :=
  ∀ v, Reaches graph root v → v.Plain graph

theorem PlainFrom.element {graph : Graph} {i : Nat} {object : Object} {v : Value}
    (plain : PlainFrom graph (.ref i)) (found : graph[i]? = some object)
    (inside : v ∈ object.elements) : PlainFrom graph v :=
  fun _ reached => plain _ (Reaches.trans (.element .root found inside) reached)

theorem PlainFrom.object {graph : Graph} {i : Nat} (plain : PlainFrom graph (.ref i)) :
    ∃ object, graph[i]? = some object ∧ object.Plain graph :=
  plain _ .root

namespace Sandbox

variable {m m' : Machine} {frame : Frame} {bindings : List (String × Value)}
variable {place : Nat → Option Nat} {ground : Ground} {graph : Graph}

/-! ## Layouts -/

theorem forall₂_both {α β : Type} {R S : α → β → Prop} {xs : List α} {ys : List β}
    (first : List.Forall₂ R xs ys) (second : List.Forall₂ S xs ys) :
    List.Forall₂ (fun x y => R x y ∧ S x y) xs ys := by
  induction first with
  | nil => exact .nil
  | cons front _ ih =>
    cases second with
    | cons front' rest => exact .cons ⟨front, front'⟩ (ih rest)

/-- What the layout of an object leads to: a new container of the same kind with copies of what the
object holds. -/
def Laid (graph : Graph) (place : Nat → Option Nat) (depth : Nat) (object : Object)
    (m : Machine) (w : Value) (m' : Machine) : Prop :=
  match object with
  | .list items => Displayed graph place depth items .list m w m'
  | .tuple items => Displayed graph place depth items .tuple m w m'
  | .dict entries => DisplayedDict graph place depth entries m w m'
  | .set items => Displayed graph place depth items .set m w m'
  | .frozenset items => Displayed graph place depth items .frozenset m w m'
  | .inst _ _ => False

structure Lays (ground : Ground) (graph : Graph) (place : Nat → Option Nat)
    (bindings : List (String × Value)) (fuel depth : Nat) (object : Object) (tree : Tree) :
    Prop where
  quiet : Quiet tree
  gives : ∀ n, fuel ≤ n → ∀ frame m, Ready frame bindings place m →
    Gives m ((interpreter ground n).eval frame tree) (Laid graph place depth object m)

theorem Lays.weaken {fuel fuel' depth : Nat} {object : Object} {tree : Tree}
    (lays : Lays ground graph place bindings fuel depth object tree) (longer : fuel ≤ fuel') :
    Lays ground graph place bindings fuel' depth object tree :=
  ⟨lays.quiet, fun n enough => lays.gives n (by omega)⟩

theorem Laid.copy {depth : Nat} {object : Object} {i : Nat} {w : Value}
    (found : graph[i]? = some object) (free : place i = none)
    (laid : Laid graph place depth object m w m') :
    Grows m m' ∧
      Copy graph place m'.heap m.undefinedCount m'.undefinedCount (depth + 1) (.ref i) w := by
  cases object with
  | dict entries =>
    obtain ⟨es, j, rfl, inner, held, grows, made⟩ := laid
    refine ⟨grows, j, rfl, .inr ⟨free, inner, _, _, found, held, ?_⟩⟩
    have keys := made.keys.forall₂
    have values := made.values
    simp only [List.forall₂_map_left_iff, List.forall₂_map_right_iff] at keys values
    exact forall₂_both keys values
  | inst cls state => exact laid.elim
  | _ =>
    obtain ⟨ws, j, rfl, inner, held, grows, made⟩ := laid
    exact ⟨grows, j, rfl, .inr ⟨free, inner, _, _, found, held, made.forall₂⟩⟩

theorem Builds.of_lays {fuel depth : Nat} {object : Object} {i : Nat} {tree : Tree}
    (found : graph[i]? = some object) (free : place i = none)
    (lays : Lays ground graph place bindings fuel depth object tree) :
    Builds ground graph place bindings fuel (depth + 1) (.ref i) tree :=
  ⟨lays.quiet, fun n enough frame m ready =>
    (lays.gives n enough frame m ready).weaken fun _ _ laid => laid.copy found free⟩

section Layouts

variable {fuel depth : Nat} {parts : List Part} {tree : Tree}

theorem lays_list
    (display : IsDisplay (.list .load) parts (Part.Builds ground graph place bindings fuel depth) tree) :
    Lays ground graph place bindings (fuel + 1) depth
      (.list (parts.map Part.value)) tree := by
  exact ⟨display.quiet rfl fun _ _ builds => builds.quiet, fun n enough frame m ready => gives_list display enough ready⟩

theorem lays_tuple
    (display : IsDisplay (.tuple .load) parts (Part.Builds ground graph place bindings fuel depth) tree) :
    Lays ground graph place bindings (fuel + 1) depth
      (.tuple (parts.map Part.value)) tree := by
  exact ⟨display.quiet rfl fun _ _ builds => builds.quiet, fun n enough frame m ready => gives_tuple display enough ready⟩

theorem lays_set (fillable : PlacesFillable graph place) (deep : depth < ground.compareDepth)
    (distinct : DistinctKeys graph (parts.map Part.value))
    (display : IsDisplay .set parts (Part.Builds ground graph place bindings fuel depth) tree) :
    Lays ground graph place bindings (fuel + 1) depth
      (.set (parts.map Part.value)) tree := by
  exact ⟨display.quiet rfl fun _ _ builds => builds.quiet, fun n enough frame m ready =>
    gives_set fillable deep display distinct.hashable distinct.unlike enough ready⟩

theorem lays_dict (fillable : PlacesFillable graph place) (deep : depth < ground.compareDepth)
    {entries : List (Part × Part)}
    (distinct : DistinctKeys graph (entries.map fun entry => entry.1.value))
    (display : IsDict entries (fun entry => entry.1.Builds ground graph place bindings fuel depth)
      (fun entry => entry.2.Builds ground graph place bindings fuel depth) tree) :
    Lays ground graph place bindings (fuel + 1) depth
      (.dict (entries.map fun entry => (entry.1.value, entry.2.value))) tree := by
  exact ⟨display.quiet (fun _ _ builds => builds.quiet) (fun _ _ builds => builds.quiet), fun n enough frame m ready =>
    gives_dict fillable deep display distinct.hashable distinct.unlike enough ready⟩

/-- An empty set of either kind is made by a call without arguments. -/
theorem lays_empty {key : String} {make : List Value → Cell} {object : Object}
    (madeBy : MadeBy key (makeFrom key fun r xs => do alloc (make (← addElements r [] xs))))
    (free : key ∉ bindings.map Prod.fst)
    (isSet : object = .set [] ∧ make = .set ∨ object = .frozenset [] ∧ make = .frozenset)
    (call : IsCall (IsName key.toList) ([] : List Part)
      (Part.Builds ground graph place bindings fuel depth) tree) :
    Lays ground graph place bindings (max (fuel + 1) 2) depth object tree := by
  refine ⟨call.quiet (fun _ isName => isName.quiet) (fun _ _ builds => builds.quiet), ?_⟩
  intro n enough frame m ready
  obtain ⟨n, rfl⟩ : ∃ k, n = k + 2 := ⟨n - 2, by omega⟩
  refine gives_call_copies madeBy free call (by omega) ready fun ws m' row => ?_
  have none : ws = [] := by
    have related := row.2.forall₂
    cases related
    rfl
  subst none
  have made : Gives m' (makeFrom key (fun r xs => do alloc (make (← addElements r [] xs)))
      (interpreter ground n) ⟨[], []⟩) (Displayed graph place depth [] make m) := by
    obtain ⟨w, m'', run, displayed⟩ := gives_alloc ready row make
    exact ⟨w, m'', (perform_makeFrom_nothing key _ _).trans run, displayed⟩
  rcases isSet with ⟨rfl, rfl⟩ | ⟨rfl, rfl⟩ <;> exact made

theorem lays_frozenset (fillable : PlacesFillable graph place) (deep : depth < ground.compareDepth)
    (free : "frozenset" ∉ bindings.map Prod.fst)
    (distinct : DistinctKeys graph (parts.map Part.value))
    (call : IsCall (IsName "frozenset".toList) [()] (fun _ =>
      IsDisplay .set parts (Part.Builds ground graph place bindings fuel depth)) tree) :
    Lays ground graph place bindings (fuel + 2) depth
      (.frozenset (parts.map Part.value)) tree := by
  refine ⟨call.quiet (fun _ isName => isName.quiet) (fun _ _ display =>
    display.quiet rfl fun _ _ builds => builds.quiet), ?_⟩
  obtain ⟨mark, inner, trees, rfl, ⟨mark', rfl⟩, each⟩ := call
  cases each with
  | @cons _ argument _ _ display rest =>
    cases rest
    intro n enough frame m ready
    obtain ⟨n, rfl⟩ : ∃ k, n = k + 2 := ⟨n - 2, by omega⟩
    have set := lays_set fillable deep distinct display
    have evaluated := gives_argument set.quiet.unstarred
      (set.gives (n + 1) (by omega) frame m ready) (classValue "frozenset")
    refine gives_call madeBy_frozenset free ready evaluated ?_
    rintro ws m' ⟨w, rfl, items, j, rfl, _, found, row⟩
    have ready' := row.ready ready
    refine ⟨ready'.standard, ?_⟩
    obtain ⟨grows, made⟩ := row
    have added := perform_addElements (r := interpreter ground n) ready'.standard fillable
      (by simpa using deep) (.nil (Nat.le_refl _)) made distinct.hashable distinct.unlike
    obtain ⟨w, m'', run, displayed⟩ := gives_alloc ready ⟨grows, made⟩ .frozenset
    refine ⟨w, m'', ?_, displayed⟩
    rw [perform_makeFrom_set "frozenset" found, perform_bind added]
    exact run

end Layouts

/-! ## Texts of containers -/

theorem mapM_ok {α β ε : Type} {f : α → Except ε β} {xs : List α} {ys : List β}
    (mapped : xs.mapM f = .ok ys) : List.Forall₂ (fun x y => f x = .ok y) xs ys := by
  induction xs generalizing ys with
  | nil =>
    cases mapped
    exact .nil
  | cons x xs ih =>
    rw [List.mapM_cons] at mapped
    cases first : f x with
    | error e =>
      rw [first] at mapped
      cases mapped
    | ok y =>
      rw [first] at mapped
      cases rest : xs.mapM f with
      | error e =>
        simp only [rest] at mapped
        cases mapped
      | ok zs =>
        simp only [rest] at mapped
        cases mapped
        exact .cons first (ih rest)

def Writes (ground : Ground) (graph : Graph) (place : Nat → Option Nat)
    (bindings : List (String × Value)) (fuel depth : Nat) (v : Value) (text : Text) : Prop :=
  ∃ lexemes, Written text lexemes
    (Builds ground graph place bindings fuel depth v)

theorem exists_parts {fuel depth : Nat} {vs : List Value} {texts : List Text}
    (each : List.Forall₂ (Writes ground graph place bindings fuel depth) vs texts) :
    ∃ parts : List Part, parts.map Part.value = vs ∧ parts.map Part.text = texts ∧
      ∀ part ∈ parts, Written part.text part.lexemes
        (part.Builds ground graph place bindings fuel depth) := by
  induction each with
  | nil => exact ⟨[], rfl, rfl, by simp⟩
  | @cons v text _ _ front _ ih =>
    obtain ⟨lexemes, written⟩ := front
    obtain ⟨parts, values, texts, all⟩ := ih
    refine ⟨⟨text, lexemes, v⟩ :: parts, by simp [values], by simp [texts], ?_⟩
    exact List.forall_mem_cons.mpr ⟨written, all⟩

theorem bind_ok {α β ε : Type} {x : Except ε α} {f : α → Except ε β} {b : β}
    (result : (x >>= f) = .ok b) : ∃ a, x = .ok a ∧ f a = .ok b := by
  cases x with
  | error e => cases result
  | ok a => exact ⟨a, rfl, result⟩

section Layout

variable {s : Survey} {render : Value → Except SerializeError Text} {fuel depth : Nat}

theorem exists_rendered {items : List Value} {texts : List Text}
    (each : ∀ v ∈ items, ∀ text, render v = .ok text →
      Writes ground graph place bindings fuel depth v text)
    (rendered : items.mapM render = .ok texts) :
    ∃ parts : List Part, parts.map Part.value = items ∧ parts.map Part.text = texts ∧
      ∀ part ∈ parts, Written part.text part.lexemes
        (part.Builds ground graph place bindings fuel depth) := by
  have related := (List.forall₂_and_left _ _).mpr ⟨each, mapM_ok rendered⟩
  exact exists_parts (related.imp fun v text ⟨writes, run⟩ => writes text run)

theorem exists_entries {entries : List (Value × Value)} {texts : List Text}
    (each : ∀ e ∈ entries, ∀ text,
      (render e.1 = .ok text → Writes ground graph place bindings fuel depth e.1 text) ∧
      (render e.2 = .ok text → Writes ground graph place bindings fuel depth e.2 text))
    (rendered : entries.mapM (Survey.layout.pair render) = .ok texts) :
    ∃ parts : List (Part × Part), (parts.map fun p => (p.1.value, p.2.value)) = entries ∧
      parts.map (entryText (fun p => p.1.text) (fun p => p.2.text)) = texts ∧
      ∀ p ∈ parts, Written p.1.text p.1.lexemes (p.1.Builds ground graph place bindings fuel depth) ∧
        Written p.2.text p.2.lexemes (p.2.Builds ground graph place bindings fuel depth) := by
  have related := (List.forall₂_and_left _ _).mpr ⟨each, mapM_ok rendered⟩
  clear each rendered
  induction related with
  | nil => exact ⟨[], rfl, rfl, by simp⟩
  | @cons e text _ _ front _ ih =>
    obtain ⟨writes, paired⟩ := front
    obtain ⟨key, keyRun, paired⟩ := bind_ok paired
    obtain ⟨value, valueRun, paired⟩ := bind_ok paired
    cases paired
    obtain ⟨keyLexemes, keyWritten⟩ := (writes key).1 keyRun
    obtain ⟨valueLexemes, valueWritten⟩ := (writes value).2 valueRun
    obtain ⟨parts, values, texts, all⟩ := ih
    refine ⟨(⟨key, keyLexemes, e.1⟩, ⟨value, valueLexemes, e.2⟩) :: parts, by simp [values],
      by simp [texts, entryText], ?_⟩
    exact List.forall_mem_cons.mpr ⟨⟨keyWritten, valueWritten⟩, all⟩

/-- The layout of a plain object lays it out, when the texts of its elements make copies. -/
theorem written_layout (fillable : PlacesFillable s.graph place) (deep : depth < ground.compareDepth)
    (free : CallsFree bindings) {i : Nat} {object : Object} (found : s.graph[i]? = some object)
    (plain : object.Plain s.graph)
    (each : ∀ v ∈ object.elements, ∀ text, render v = .ok text →
      Writes ground s.graph place bindings fuel depth v text)
    {text : Text} (laid : s.layout i render = .ok text) :
    ∃ lexemes, Written text lexemes
      (Lays ground s.graph place bindings (fuel + 2) depth object) := by
  have same : s.object i = object := by
    rw [Survey.object, Array.getD_eq_getD_getElem?, found]
    rfl
  unfold Survey.layout at laid
  rw [same] at laid
  cases object with
  | list items =>
    obtain ⟨texts, rendered, laid⟩ := bind_ok laid
    cases laid
    obtain ⟨parts, rfl, rfl, all⟩ := exists_rendered each rendered
    refine ⟨_, (written_list parts all).weaken fun tree display => ?_⟩
    exact (lays_list display).weaken (by omega)
  | tuple items =>
    by_cases single : items.length = 1
    · obtain ⟨item, rfl⟩ := List.length_eq_one_iff.mp single
      obtain ⟨text, rendered, laid⟩ := bind_ok laid
      cases laid
      obtain ⟨part, rfl, rfl, written⟩ : ∃ part : Part, part.value = item ∧ part.text = text ∧
          Written part.text part.lexemes
            (part.Builds ground s.graph place bindings fuel depth) := by
        obtain ⟨lexemes, written⟩ := each item (List.mem_cons_self ..) text rendered
        exact ⟨⟨text, lexemes, item⟩, rfl, rfl, written⟩
      refine ⟨_, (written_single part written).weaken fun tree display => ?_⟩
      exact (lays_tuple display).weaken (by omega)
    · have laid : (do return '(' :: (MacroExpand.commaList (← items.mapM render) ++ [')'])) =
          Except.ok (ε := SerializeError) text := by
        match items, single with
        | [], _ => exact laid
        | _ :: _ :: _, _ => exact laid
      obtain ⟨texts, rendered, laid⟩ := bind_ok laid
      cases laid
      obtain ⟨parts, rfl, rfl, all⟩ := exists_rendered each rendered
      refine ⟨_, (written_tuple parts all (by simpa using single)).weaken fun tree display => ?_⟩
      exact (lays_tuple display).weaken (by omega)
  | dict entries =>
    obtain ⟨texts, rendered, laid⟩ := bind_ok laid
    cases laid
    have both : ∀ e ∈ entries, ∀ text,
        (render e.1 = .ok text → Writes ground s.graph place bindings fuel depth e.1 text) ∧
        (render e.2 = .ok text → Writes ground s.graph place bindings fuel depth e.2 text) := by
      intro e inside text
      refine ⟨each e.1 ?_ text, each e.2 ?_ text⟩ <;>
        exact List.mem_flatMap.mpr ⟨e, inside, by simp⟩
    obtain ⟨parts, rfl, rfl, all⟩ := exists_entries both rendered
    have written := written_dict parts (fun p inside => (all p inside).1)
      (fun p inside => (all p inside).2) (fun p tree builds => builds.quiet.isStarred)
    refine ⟨_, written.weaken fun tree display => ?_⟩
    refine (lays_dict fillable deep ?_ display).weaken (by omega)
    simpa [Object.Plain, Function.comp_def] using plain
  | set items =>
    cases items with
    | nil =>
      cases laid
      obtain ⟨form, word⟩ := calledName_forms (by decide : "set" ∈ calledNames)
      have none : ∀ part ∈ ([] : List Part), Written part.text part.lexemes
          (part.Builds ground s.graph place bindings fuel depth) := by simp
      refine ⟨_, (written_call form word [] none).weaken fun tree call => ?_⟩
      exact (lays_empty madeBy_set (free _ (by decide)) (.inl ⟨rfl, rfl⟩) call).weaken
        (by omega)
    | cons first rest =>
      obtain ⟨texts, rendered, laid⟩ := bind_ok laid
      cases laid
      obtain ⟨parts, values, rfl, all⟩ := exists_rendered each rendered
      cases parts with
      | nil => cases values
      | cons part parts =>
        change (part :: parts).map Part.value = first :: rest at values
        rw [← values] at plain ⊢
        refine ⟨_, (written_set part parts all).weaken fun tree display => ?_⟩
        exact (lays_set fillable deep plain display).weaken
          (by omega)
  | frozenset items =>
    cases items with
    | nil =>
      cases laid
      obtain ⟨form, word⟩ := calledName_forms (by decide : "frozenset" ∈ calledNames)
      have none : ∀ part ∈ ([] : List Part), Written part.text part.lexemes
          (part.Builds ground s.graph place bindings fuel depth) := by simp
      refine ⟨_, (written_call form word [] none).weaken fun tree call => ?_⟩
      exact (lays_empty madeBy_frozenset (free _ (by decide)) (.inr ⟨rfl, rfl⟩) call).weaken
        (by omega)
    | cons first rest =>
      obtain ⟨texts, rendered, laid⟩ := bind_ok laid
      cases laid
      obtain ⟨parts, values, rfl, all⟩ := exists_rendered each rendered
      cases parts with
      | nil => cases values
      | cons part parts =>
        change (part :: parts).map Part.value = first :: rest at values
        rw [← values] at plain ⊢
        obtain ⟨form, word⟩ := calledName_forms (by decide : "frozenset" ∈ calledNames)
        have written := written_call form word [()] fun _ _ => written_set part parts all
        have shape : chars "frozenset(\x7b" ++
            MacroExpand.commaList ((part :: parts).map Part.text) ++ chars "\x7d)" =
            "frozenset".toList ++ MacroExpand.callText ([()].map fun _ =>
              '\x7b' :: (MacroExpand.commaList ((part :: parts).map Part.text) ++ ['\x7d'])) := by
          simp [MacroExpand.callText, MacroExpand.commaList, Text.joinWith, chars]
        rw [shape]
        refine ⟨_, written.weaken fun tree call => ?_⟩
        exact lays_frozenset fillable deep (free _ (by decide)) plain call
  | inst cls state => exact plain.elim

end Layout

/-! ## Parameters -/

theorem parameter_text {shared : List Nat} {i : Nat} {name : Text}
    (isParameter : Survey.paramName shared i = some name) :
    ∃ k, shared.findIdx? (· = i) = some k ∧ name = '_' :: decimalDigits k := by
  obtain ⟨k, found, rfl⟩ := Option.map_eq_some_iff.mp isParameter
  exact ⟨k, found, rfl⟩

theorem wordForm_parameter (k : Nat) : WordForm ('_' :: decimalDigits k) := by
  have digits := decimalDigits_isDigit k
  refine ⟨by simp, ?_, ?_, ?_, ?_⟩
  · intro c first
    cases first
    decide
  · refine List.forall_mem_cons.mpr ⟨by decide, fun c inside => ?_⟩
    simp [Number.isWordChar, Char.isAlphanum, digits c inside]
  · refine List.forall_mem_cons.mpr ⟨by decide, fun c inside => ?_⟩
    exact (isDigit_of_digitChar (digits c inside)).2.1
  · have start : isNameStart '_' = true := by decide
    simp only [Text.isName, start, Bool.true_and, List.all_eq_true]
    intro c inside
    simp [isNameRest, digits c inside]

theorem plainWord_parameter (k : Nat) : PlainWord ('_' :: decimalDigits k) := by
  refine .of_ascii ?_ ?_
  · simp only [Text.isAscii, List.all_cons, Bool.and_eq_true, List.all_eq_true, decide_eq_true_eq]
    refine ⟨by decide, fun c inside => ?_⟩
    exact (isDigit_of_digitChar (decimalDigits_isDigit k c inside)).1
  · have other : ∀ word ∈ keywords, word.head? ≠ some '_' := by decide
    rw [isKeyword, List.contains_eq_mem, decide_eq_false_iff_not]
    intro inside
    exact other _ inside rfl

/-- The objects that have a place are those that stand for a parameter, which is bound to the place. -/
structure Named (shared : List Nat) (place : Nat → Option Nat) (bindings : List (String × Value)) :
    Prop where
  bound : ∀ i name, Survey.paramName shared i = some name →
    ∃ j, place i = some j ∧ lookup bindings (String.ofList name) = some (.ref j)
  free : ∀ i, Survey.paramName shared i = none → place i = none

theorem builds_parameter {i j : Nat} {name : Text} {tree : Tree} (here : place i = some j)
    (bound : lookup bindings (String.ofList name) = some (.ref j)) (isName : IsName name tree)
    (depth : Nat) : Builds ground graph place bindings 1 (depth + 1) (.ref i) tree := by
  refine ⟨isName.quiet, ?_⟩
  obtain ⟨mark, rfl⟩ := isName
  intro n enough frame m ready
  obtain ⟨n, rfl⟩ : ∃ k, n = k + 1 := ⟨n - 1, by omega⟩
  refine Gives.of_perform (perform_lookupName_bound ready bound) ⟨Grows.refl m, ?_⟩
  exact ⟨j, rfl, .inl here⟩

theorem written_render {s : Survey} {shared : List Nat} (fillable : PlacesFillable s.graph place)
    (free : CallsFree bindings) (named : Named shared place bindings) {depth : Nat}
    (deep : depth ≤ ground.compareDepth) {v : Value} {text : Text} (plain : PlainFrom s.graph v)
    (rendered : s.render shared depth v = .ok text) :
    Writes ground s.graph place bindings (2 * depth + 4) depth v text := by
  induction depth generalizing v text with
  | zero =>
    cases v with
    | scalar x =>
      cases rendered
      exact written_scalar free x (plain _ .root) 0
    | ref i => cases rendered
  | succ depth ih =>
    cases v with
    | scalar x =>
      cases rendered
      obtain ⟨lexemes, written⟩ := written_scalar free x (plain _ .root) (depth + 1)
      exact ⟨lexemes, written.weaken fun tree builds =>
        builds.weaken (by omega) (Nat.le_refl _)⟩
    | ref i =>
      rw [Survey.render] at rendered
      cases isParameter : Survey.paramName shared i with
      | some name =>
        rw [isParameter] at rendered
        cases rendered
        obtain ⟨j, here, bound⟩ := named.bound i _ isParameter
        obtain ⟨k, -, rfl⟩ := parameter_text isParameter
        have written := written_name (wordForm_parameter k) (plainWord_parameter k)
        exact ⟨_, written.weaken fun tree isName =>
          (builds_parameter here bound isName depth).weaken (by omega) (Nat.le_refl _)⟩
      | none =>
        rw [isParameter] at rendered
        obtain ⟨object, found, isPlain⟩ := plain.object
        have each : ∀ v ∈ object.elements, ∀ text, s.render shared depth v = .ok text →
            Writes ground s.graph place bindings (2 * depth + 4) depth v text :=
          fun v inside text => ih (by omega) (plain.element found inside)
        obtain ⟨lexemes, written⟩ :=
          written_layout fillable (by omega) free found isPlain each rendered
        exact ⟨lexemes, written.weaken fun tree lays =>
          (Builds.of_lays found (named.free i isParameter) lays).weaken (by omega)
            (Nat.le_refl _)⟩

end Sandbox

end MacroExpand
