import MacroExpand.Proofs.AccessPaths
import MacroExpand.Proofs.Reducing

/-!
# Names that can be imported

A known class is rebuilt by a name: its own, or that of a constructor.  The text of the name is parsed as a path, and
following the path ends at the intended object, if every part of the name is an identifier and importing the module and
taking the attributes ends there.  For members of enumerations the second half is looked up before they are rebuilt.
-/

set_option autoImplicit false

namespace MacroExpand

open MacroExpand.Parser

/-! ## Following a path -/

def ClassName.path (name : ClassName) : List Text := name.qualname.toList.splitOn '.'

theorem ClassName.path_attribute (module qualname : String) {part : Text} (noPoint : '.' ∉ part) :
    (ClassName.mk module (qualname ++ "." ++ String.ofList part)).path = (ClassName.mk module qualname).path ++ [part] := by
  have form : (qualname ++ "." ++ String.ofList part).toList = qualname.toList ++ '.' :: part := by simp
  rw [path, path, form, List.splitOn_append_cons_self, List.splitOn_eq_singleton noPoint]

theorem ClassName.attributeText_path (name : ClassName) : attributeText name.path = '.' :: name.qualname.toList := by
  have whole : ['.'].intercalate name.path = name.qualname.toList := List.intercalate_splitOn '.'
  have joined : ∀ parts : List Text, parts ≠ [] → attributeText parts = '.' :: ['.'].intercalate parts := by
    intro parts nonempty
    induction parts with
    | nil => exact absurd rfl nonempty
    | cons part parts ih =>
      cases parts with
      | nil => simp [attributeText]
      | cons other parts =>
        rw [attributeText, List.flatMap_cons, List.intercalate_cons_cons]
        rw [attributeText] at ih
        rw [ih (List.cons_ne_nil _ _)]
        simp
  rw [joined name.path (List.splitOn_ne_nil _ _), whole]

/-- What importing modules and taking attributes come upon in a program with objects `Thing`. -/
structure Library (Thing : Type) where
  /-- The module of a name, imported if need be. -/
  load : Text → Option Thing
  /-- An attribute of an object. -/
  access : Thing → Text → Option Thing
  /-- The object that a class is. -/
  cls : Class → Thing
  /-- The members that the body of an enumeration names. -/
  members : Class → List Text
  /-- The object that a member is. -/
  member : Class → Text → Thing

namespace Library

variable {Thing : Type} {library : Library Thing}

/-- Import the module of a name and take the parts of the name as attributes, one after the other. -/
def find (library : Library Thing) (name : ClassName) : Option Thing :=
  (library.load name.module.toList).bind fun m => name.path.foldlM library.access m

/-- What the built-in function for imports gives: the module itself if names are to be taken from it, and else the
outermost package around it. -/
def imported (library : Library Thing) (module : Text) (takes : Bool) : Option Thing :=
  (library.load module).bind fun m => if takes then some m else library.load (module.takeWhile (· ≠ '.'))

/-- Follow a path of attributes behind a built-in name or behind an import; any other expression is no path. -/
def follow (library : Library Thing) : Tree → Option Thing
  | .node _ (.name name .load) [] => (library.load (chars "builtins")).bind (library.access · name.toList)
  | .node _ (.attribute name .load) [[inner]] => (library.follow inner).bind (library.access · name.toList)
  | .node _ .call [[.node _ (.name "__import__" .load) []], [.node _ (.constant (.str module) _) []], []] =>
    library.imported module false
  | .node _ .call [[.node _ (.name "__import__" .load) []], [.node _ (.constant (.str module) _) []],
      [.node _ (.keyword (some "fromlist")) [[.node _ (.list .load) [names]]]]] =>
      library.imported module !names.isEmpty
  | _ => none

/-- A text is a path that leads to an object. -/
def Leads (library : Library Thing) (text : Text) (thing : Thing) : Prop :=
  ∃ tree, parseExpression text = .ok tree ∧ library.follow tree = some thing

theorem follow_chain {base : Tree → Prop} {parts : List Text} {tree : Tree} {first thing : Thing}
    (chain : IsChain base parts tree) (start : ∀ tree, base tree → library.follow tree = some first)
    (leads : parts.foldlM library.access first = some thing) : library.follow tree = some thing := by
  induction chain generalizing thing with
  | base holds =>
    cases leads
    exact start _ holds
  | access m part chain ih =>
    rw [List.foldlM_append] at leads
    obtain ⟨inner, reached, last⟩ := Option.bind_eq_some_iff.mp leads
    obtain ⟨final, accessed, same⟩ := Option.bind_eq_some_iff.mp last
    cases same
    rw [follow, ih reached, String.toList_ofList]
    exact accessed

theorem follow_import {module : Text} {head : Option Text} {tree : Tree} {thing : Thing}
    (isImport : IsImport module head tree) (loaded : library.load module = some thing)
    (plain : head = none → '.' ∉ module) : library.follow tree = some thing := by
  cases isImport with
  | whole m isCallee isName =>
    obtain ⟨-, rfl⟩ := isCallee
    obtain ⟨-, rfl⟩ := isName
    have outermost : module.takeWhile (· ≠ '.') = module := by
      have all : ∀ c ∈ module, decide (c ≠ '.') = true := fun c member =>
        decide_eq_true fun same => plain rfl (same ▸ member)
      simpa using (Lexer.takeWhile_append_of_stop [] all nofun).1
    rw [show chars "__import__" = "__import__".toList from rfl, String.ofList_toList]
    rw [follow, imported, loaded, outermost]
    exact loaded
  | taken m m' isCallee isName isNames =>
    obtain ⟨-, rfl⟩ := isCallee
    obtain ⟨-, rfl⟩ := isName
    obtain ⟨-, trees, rfl, all⟩ := isNames
    cases all with
    | cons _ rest =>
      cases rest
      rw [show chars "__import__" = "__import__".toList from rfl, String.ofList_toList]
      rw [follow, imported, loaded]
      rfl

end Library

/-! ## Texts of names -/

theorem Recipe.target_eq (recipe : Recipe) (outside : recipe.module ≠ "builtins") :
    ∃ head, recipe.target = importText recipe.module.toList head ++
        attributeText (ClassName.path ⟨recipe.module, recipe.qualname⟩) ∧
      (head = none → '.' ∉ recipe.module.toList) := by
  have opening : chars "__import__(" = chars "__import__" ++ ['('] := rfl
  have closing : chars ")." = [')', '.'] := rfl
  have names : chars ", fromlist=[" = [',', ' '] ++ (chars "fromlist" ++ ['=', '[']) := rfl
  have ending : chars "]" = [']'] := rfl
  rw [ClassName.attributeText_path]
  by_cases inner : '.' ∈ recipe.module.toList
  · refine ⟨some (recipe.qualname.toList.takeWhile (· != '.')), ?_, nofun⟩
    have dotted : recipe.module.toList.contains '.' = true := by simpa using inner
    unfold target importText takenText
    rw [if_neg outside, dotted, opening, closing, names, ending]
    simp only [if_true, List.append_assoc, List.cons_append, List.nil_append]
  · refine ⟨none, ?_, fun _ => inner⟩
    have plain : recipe.module.toList.contains '.' = false := by simpa using inner
    unfold target importText takenText
    rw [if_neg outside, plain, opening, closing]
    simp only [Bool.false_eq_true, if_false, List.append_assoc, List.cons_append, List.nil_append]

theorem Recipe.target_builtins {recipe : Recipe} (builtin : recipe.module = "builtins") :
    ∃ part parts, ClassName.path ⟨recipe.module, recipe.qualname⟩ = part :: parts ∧
      recipe.target = part ++ attributeText parts := by
  obtain ⟨part, parts, form⟩ := List.exists_cons_of_ne_nil
    (List.splitOn_ne_nil '.' recipe.qualname.toList)
  refine ⟨part, parts, form, ?_⟩
  have whole := ClassName.attributeText_path ⟨recipe.module, recipe.qualname⟩
  rw [ClassName.path, form] at whole
  rw [target, if_pos builtin]
  exact (List.cons.inj whole).2.symm

/-- The text that names the target of a recipe leads to what importing the module and taking the parts of the name
leads to, if the parts are identifiers. -/
theorem Library.leads_target {Thing : Type} {library : Library Thing} {recipe : Recipe} {thing : Thing}
    (identifiers : ∀ part ∈ ClassName.path ⟨recipe.module, recipe.qualname⟩, Identifier part)
    (found : library.find ⟨recipe.module, recipe.qualname⟩ = some thing) : library.Leads recipe.target thing := by
  obtain ⟨m, loaded, reached⟩ := Option.bind_eq_some_iff.mp found
  by_cases builtin : recipe.module = "builtins"
  · obtain ⟨part, parts, form, same⟩ := Recipe.target_builtins builtin
    rw [form] at identifiers reached
    rw [builtin] at loaded
    obtain ⟨tree, parsed, chain⟩ := parse_builtin identifiers
    rw [List.foldlM_cons] at reached
    obtain ⟨first, isFirst, reached⟩ := Option.bind_eq_some_iff.mp reached
    refine ⟨tree, same ▸ parsed, follow_chain chain ?_ reached⟩
    rintro _ ⟨m', rfl⟩
    rw [follow, show chars "builtins" = "builtins".toList from rfl, loaded, String.toList_ofList]
    exact isFirst
  · obtain ⟨head, same, plain⟩ := recipe.target_eq builtin
    obtain ⟨tree, parsed, chain⟩ := parse_import recipe.module.toList head identifiers
    exact ⟨tree, same ▸ parsed, follow_chain chain (fun _ isImport => follow_import isImport loaded plain) reached⟩

/-! ## The names of known classes -/

instance (text : Text) : Decidable (Identifier text) :=
  decidable_of_iff (text.isName = true ∧ text.plainName = text ∧ isKeyword text = false)
    ⟨fun h => ⟨h.1, h.2.1, h.2.2⟩, fun h => ⟨h.isName, h.plain.plainName, h.plain.free⟩⟩

def Class.constructors : List Class :=
  [url, queryParams, headers, request, response, formData, bytearray, memoryview, timedelta, decimal, uuid, fraction,
    orderedDict]

theorem Class.constructors_identifiers : ∀ cls ∈ constructors, ∀ part ∈ cls.name.path, Identifier part := by
  decide +kernel

namespace Library

variable {Thing : Type} {library : Library Thing} {cls : Class} {state : State}

/-- What the library holds of classes that come with it: the constructors stand at their names, classes of moments
inherit a reader, and a member that an enumeration names is an attribute of it. -/
structure Standard (library : Library Thing) : Prop where
  constructors : ∀ cls ∈ Class.constructors, library.find cls.name = some (library.cls cls)
  readers : ∀ cls : Class, (∃ base ∈ [Class.datetime, Class.date, Class.time], .known base.name ∈ cls.lineage) →
    (library.access (library.cls cls) (chars "fromisoformat")).isSome
  members : ∀ cls, ∀ name ∈ library.members cls,
    library.access (library.cls cls) name = some (library.member cls name)

/-- An instance of a class as a program with this library holds it: moments descend from their classes, and a member
knows whether its class is found by its name.  No instance brings its own recipe. -/
def Holds (library : Library Thing) (cls : Class) : State → Prop
  | .datetime _ => .known Class.datetime.name ∈ cls.lineage
  | .date _ => .known Class.date.name ∈ cls.lineage
  | .time _ => .known Class.time.name ∈ cls.lineage
  | .enumMember _ reachability => reachability = .found ↔ library.find cls.name = some (library.cls cls)
  | .rebuilt _ => False
  | _ => True

/-- The object that an instance is rebuilt by: a constructor, the class itself, its reader, or the member. -/
def intended (library : Library Thing) (cls : Class) : State → Option Thing
  | .url _ => some (library.cls Class.url)
  | .queryParams _ => some (library.cls Class.queryParams)
  | .headers _ => some (library.cls Class.headers)
  | .request _ => some (library.cls Class.request)
  | .response _ => some (library.cls Class.response)
  | .formData _ => some (library.cls Class.formData)
  | .bytearray _ => some (library.cls Class.bytearray)
  | .memoryview _ _ => some (library.cls Class.memoryview)
  | .timedelta _ => some (library.cls Class.timedelta)
  | .decimal _ => some (library.cls Class.decimal)
  | .uuid _ => some (library.cls Class.uuid)
  | .fraction _ _ => some (library.cls Class.fraction)
  | .ordered _ => some (library.cls Class.orderedDict)
  | .path _ => some (library.cls cls)
  | .datetime _ | .date _ | .time _ => library.access (library.cls cls) (chars "fromisoformat")
  | .enumMember name _ => some (library.member cls name)
  | .rebuilt _ | .opaqueObject _ | .callable _ | .pending _ | .irreducible => none

/-- An object stands at a name whose parts are identifiers. -/
structure Stands (library : Library Thing) (name : ClassName) (thing : Thing) : Prop where
  identifiers : ∀ part ∈ name.path, Identifier part
  found : library.find name = some thing

/-- What is not looked up before an instance is rebuilt: that the class of a moment or of a path can be imported, and
that a member of an enumeration that is found has a name by which its class gives it. -/
def Named (library : Library Thing) (cls : Class) : State → Prop
  | .datetime _ | .date _ | .time _ | .path _ => library.Stands cls.name (library.cls cls)
  | .enumMember name reachability =>
    reachability = .found → Text.containsText cls.name.qualname.toList (chars "<locals>") = false →
      (∀ part ∈ cls.name.path, Identifier part) ∧ Identifier name ∧ name ∈ library.members cls
  | _ => True

theorem find_access (module qualname : String) {part : Text} (noPoint : '.' ∉ part) :
    library.find ⟨module, qualname ++ "." ++ String.ofList part⟩ =
      (library.find ⟨module, qualname⟩).bind (library.access · part) := by
  rw [find, find, ClassName.path_attribute module qualname noPoint]
  cases library.load module.toList with
  | none => rfl
  | some m =>
    simp only [Option.bind_some, List.foldlM_append]
    cases (ClassName.mk module qualname).path.foldlM library.access m with
    | none => rfl
    | some cls =>
      exact Option.bind_fun_some _

theorem Stands.access {module qualname : String} {thing inner : Thing} {part : Text} (identifier : Identifier part)
    (stands : library.Stands ⟨module, qualname⟩ inner) (accessed : library.access inner part = some thing) :
    library.Stands ⟨module, qualname ++ "." ++ String.ofList part⟩ thing := by
  constructor
  · rw [ClassName.path_attribute module qualname identifier.noPoint]
    exact List.forall_mem_append.mpr ⟨stands.identifiers, List.forall_mem_singleton.mpr identifier⟩
  · rw [find_access module qualname identifier.noPoint, stands.found]
    exact accessed

theorem Stands.leads (recipe : Recipe) {thing : Thing} (stands : library.Stands ⟨recipe.module, recipe.qualname⟩ thing) :
    library.Leads recipe.target thing := leads_target stands.identifiers stands.found

theorem Standard.stands (standard : library.Standard) (isConstructor : cls ∈ Class.constructors) :
    library.Stands cls.name (library.cls cls) :=
  ⟨Class.constructors_identifiers cls isConstructor, standard.constructors cls isConstructor⟩

theorem Standard.stands_reader (standard : library.Standard) (offered : library.Stands cls.name (library.cls cls))
    {base : Class} (temporal : base ∈ [Class.datetime, Class.date, Class.time])
    (descends : .known base.name ∈ cls.lineage) :
    ∃ thing, library.access (library.cls cls) (chars "fromisoformat") = some thing ∧
      library.Stands ⟨cls.name.module, cls.name.qualname ++ ".fromisoformat"⟩ thing := by
  obtain ⟨thing, reader⟩ := Option.isSome_iff_exists.mp (standard.readers cls ⟨base, temporal, descends⟩)
  have identifier : Identifier (chars "fromisoformat") := by decide +kernel
  refine ⟨thing, reader, ?_⟩
  have stands := offered.access identifier reader
  rwa [String.append_assoc, show "." ++ String.ofList (chars "fromisoformat") = ".fromisoformat" from rfl] at stands

/-- Whatever is reduced at all is rebuilt by a name at which the intended object stands. -/
theorem Standard.stands_rebuilt (standard : library.Standard) (holds : library.Holds cls state)
    (named : library.Named cls state) (reduced : Reducer.standard cls state ≠ .ok none) :
    ∃ thing, library.intended cls state = some thing ∧ library.Stands (state.rebuiltBy cls) thing := by
  cases state with
  | datetime => exact standard.stands_reader named (by simp) holds
  | date => exact standard.stands_reader named (by simp) holds
  | time => exact standard.stands_reader named (by simp) holds
  | path => exact ⟨_, rfl, named⟩
  | enumMember name reachability =>
    rw [Reducer.standard] at reduced
    split at reduced
    · exact absurd rfl reduced
    · rename_i importable
      rw [Bool.or_eq_true, not_or, Bool.not_eq_true, bne_iff_ne, not_not] at importable
      obtain ⟨identifiers, identifier, isMember⟩ := named importable.2 importable.1
      have stands : library.Stands cls.name (library.cls cls) := ⟨identifiers, holds.mp importable.2⟩
      exact ⟨_, rfl, stands.access identifier (standard.members cls name isMember)⟩
  | rebuilt => exact holds.elim
  | opaqueObject | callable | pending | irreducible => exact absurd rfl reduced
  | _ => exact ⟨_, rfl, standard.stands (by simp [Class.constructors])⟩

end Library

/-! ## Refusals -/

theorem uneval_irreducible {registry : Registry} {graph : Graph} {i : Nat} {cls : Class} {state : State}
    (found : graph[i]? = some (.inst cls state)) (irreducible : registry.reduce cls state = .ok none) (limit : Nat) :
    uneval registry (limit + 1) graph (.ref i) = .error (refusal cls state) := by
  have object : Survey.object { graph } i = .inst cls state := by
    rw [Survey.object, Array.getD_eq_getD_getElem?, found]
    rfl
  have plain : Survey.hoistable { graph } i = false := by
    rw [Survey.hoistable, object]
    rfl
  have refused : Survey.children registry { graph } i = .error (refusal cls state) := by
    rw [Survey.children, object]
    simp only [Survey.reduce, Survey.recipe?, List.find?_nil, Option.map_none, irreducible]
  have scanned : Survey.scan registry (limit + 1) [] { graph } (.ref i) = .error (refusal cls state) := by
    rw [Survey.scan]
    simp only [List.contains_nil, plain, Bool.false_and, Bool.false_eq_true, if_false, refused]
  rw [uneval, scanned]

/-- The text that names a class or a member. -/
def ClassName.target (name : ClassName) : Text := Recipe.target ⟨name.module, name.qualname, none, []⟩

theorem FreshRecipe.target_alloc (fresh : FreshRecipe) (graph : Graph) :
    (fresh.alloc graph).2.target = ClassName.target ⟨fresh.module, fresh.qualname⟩ := by
  rfl

/-! ## What reductions name -/

/-- The text of whatever a known class is reduced to is a path that leads to the intended object, and an instance that
no path leads to is not reduced, so that it cannot be written. -/
theorem reductions_importable {Thing : Type} {library : Library Thing} (standard : library.Standard) {cls : Class}
    {state : State} (holds : library.Holds cls state) (named : library.Named cls state) :
    (∀ fresh, Registry.standard.reduce cls state = .ok (some fresh) → ∀ graph,
      ∃ thing, library.intended cls state = some thing ∧ library.Leads (fresh.alloc graph).2.target thing) ∧
    ((¬ ∃ thing, library.intended cls state = some thing ∧ library.Leads (state.rebuiltBy cls).target thing) →
      Registry.standard.reduce cls state = .ok none ∧ ∀ (graph : Graph) (i limit : Nat),
        graph[i]? = some (.inst cls state) →
          uneval Registry.standard (limit + 1) graph (.ref i) = .error (refusal cls state)) := by
  have leads : Reducer.standard cls state ≠ .ok none →
      ∃ thing, library.intended cls state = some thing ∧ library.Leads (state.rebuiltBy cls).target thing := by
    intro reduced
    obtain ⟨thing, isIntended, stands⟩ := standard.stands_rebuilt holds named reduced
    exact ⟨thing, isIntended, Library.Stands.leads ⟨_, _, none, []⟩ stands⟩
  constructor
  · intro fresh answer graph
    rcases Registry.reduce_standard_cases cls state with same | none
    · rw [same] at answer
      rw [fresh.target_alloc, Reducer.named_standard answer]
      exact leads (by simp [answer])
    · rw [none] at answer
      cases answer
  · intro unled
    have irreducible : Registry.standard.reduce cls state = .ok none := by
      rcases Registry.reduce_standard_cases cls state with same | none
      · rw [same]
        by_contra reduced
        exact unled (leads reduced)
      · exact none
    exact ⟨irreducible, fun graph i limit found => uneval_irreducible found irreducible limit⟩

/-! ## A library with one enumeration -/

/-- The objects of a small program. -/
inductive Entry where
  | module (name : Text)
  | cls (cls : Class)
  | reader (cls : Class)
  | member (cls : Class) (name : Text)
  deriving DecidableEq

/-- The flags of regular expressions. -/
def regexFlag : Class := .known "re" "RegexFlag" [("enum", "Enum")]

/-- The constructors at their names, moments that know their readers, and the flags of regular expressions. -/
def flagLibrary : Library Entry where
  load name :=
    if (regexFlag :: Class.constructors).any fun cls => cls.name.module.toList = name then some (.module name) else none
  access
    | .module name, part =>
      ((regexFlag :: Class.constructors).find? fun cls =>
        cls.name.module.toList = name ∧ cls.name.qualname.toList = part).map .cls
    | .cls cls, part =>
      if cls = regexFlag ∧ part ∈ [chars "IGNORECASE", chars "MULTILINE"] then some (.member cls part)
      else if part = chars "fromisoformat" then some (.reader cls) else none
    | _, _ => none
  cls := .cls
  members cls := if cls = regexFlag then [chars "IGNORECASE", chars "MULTILINE"] else []
  member := .member

theorem flagLibrary_standard : flagLibrary.Standard where
  constructors := by decide +kernel
  readers cls _ := by
    simp only [flagLibrary, if_true]
    split <;> rfl
  members cls name member := by
    simp only [flagLibrary] at member ⊢
    split at member
    · rename_i isFlag
      rw [if_pos ⟨isFlag, member⟩]
    · cases member

theorem regexFlag_importable :
    flagLibrary.Standard ∧ flagLibrary.Holds regexFlag (.enumMember (chars "IGNORECASE") .found) ∧
      flagLibrary.Named regexFlag (.enumMember (chars "IGNORECASE") .found) ∧
      Registry.standard.reduce regexFlag (.enumMember (chars "IGNORECASE") .found) =
        .ok (some ⟨"re", "RegexFlag.IGNORECASE", none, []⟩) ∧
      flagLibrary.Leads (chars "__import__('re').RegexFlag.IGNORECASE") (.member regexFlag (chars "IGNORECASE")) := by
  have holds : flagLibrary.Holds regexFlag (.enumMember (chars "IGNORECASE") .found) := by
    have found : flagLibrary.find regexFlag.name = some (.cls regexFlag) := by decide +kernel
    exact ⟨fun _ => found, fun _ => rfl⟩
  have named : flagLibrary.Named regexFlag (.enumMember (chars "IGNORECASE") .found) := by
    intro _ _
    decide +kernel
  have answer : Registry.standard.reduce regexFlag (.enumMember (chars "IGNORECASE") .found) =
      .ok (some ⟨"re", "RegexFlag.IGNORECASE", none, []⟩) := by rfl
  obtain ⟨thing, isIntended, leads⟩ := (reductions_importable flagLibrary_standard holds named).1 _ answer #[]
  cases isIntended
  exact ⟨flagLibrary_standard, holds, named, answer, leads⟩

/-- A class of moments that the body of a function defines. -/
def localMoment : Class := ⟨⟨"mod", "f.<locals>.D"⟩, .own 0 :: Class.datetime.lineage⟩

/-- An instance is reduced, but no library leads the text that it is reduced to anywhere. -/
def Unled (cls : Class) (state : State) : Prop :=
  ∃ fresh, Registry.standard.reduce cls state = .ok (some fresh) ∧
    ∀ (graph : Graph) (Thing : Type) (library : Library Thing) (thing : Thing),
      ¬ library.Leads (fresh.alloc graph).2.target thing

/-- The text for two flags together is an operation on names, and that for a moment of a class inside a function is no
expression. -/
theorem combinedFlags_unled :
    Unled regexFlag (.enumMember (chars "IGNORECASE|MULTILINE") .found) ∧
      Unled localMoment (.datetime ⟨⟨2020, 1, 2⟩, ⟨3, 4, 5, 0, none⟩⟩) := by
  have unled : ∀ name : ClassName, (match parseExpression name.target with
        | .ok (.node _ (.binOp _) _) | .error _ => true
        | _ => false) = true → ∀ (Thing : Type) (library : Library Thing) (thing : Thing),
      ¬ library.Leads name.target thing := by
    rintro name noPath Thing library thing ⟨tree, parsed, follows⟩
    rw [parsed] at noPath
    obtain ⟨m, kind, slots⟩ := tree
    cases kind with
    | binOp => simp [Library.follow] at follows
    | _ => cases noPath
  constructor
  · refine ⟨⟨"re", "RegexFlag.IGNORECASE|MULTILINE", none, []⟩, by rfl, fun graph => ?_⟩
    rw [FreshRecipe.target_alloc]
    exact unled _ (by decide +kernel)
  · refine ⟨⟨"mod", "f.<locals>.D.fromisoformat", some [Reducer.str (chars "2020-01-02T03:04:05")], []⟩, by rfl,
      fun graph => ?_⟩
    rw [FreshRecipe.target_alloc]
    exact unled _ (by decide +kernel)

end MacroExpand
