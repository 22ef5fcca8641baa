import MacroExpand.Proofs.Descents
import MacroExpand.Proofs.LineGuard
import MacroExpand.Proofs.Outermost
import MacroExpand.Sandbox.Starting

/-!
# The arguments that macros get

A macro gets the text of its arguments as it stands in the file, from the end of what the call names to the end of the
call, with the calls in it replaced that were replaced before (`Text.splice_spec`).  Each of them is replaced by a text
that holds the expression of its macro, and the expression reads as the tree that takes the place of the call in the
tree (`Rewriting.Replaces`).

Whether the text behind the name of the macro reads as the call is another matter: where the name is in brackets, the
text begins inside them.
-/

set_option autoImplicit false

namespace MacroExpand

/-! ## Edits that are kept -/

namespace PlacedEdit

theorem sweep_spec {last : Option PlacedEdit} {edits kept : List PlacedEdit}
    (sorted : edits.Pairwise fun a b => a.precedes b = true) (behind : ∀ k ∈ last, ∀ e ∈ edits, k.precedes e = true)
    (swept : sweep last edits = .ok kept) :
    kept.Pairwise (fun a b => a.stop ≤ b.start) ∧ (∀ k ∈ last, ∀ e ∈ kept, k.stop ≤ e.start) ∧
      ∀ e ∈ edits, ∃ k ∈ last.toList ++ kept, e.Within k.start k.stop := by
  induction edits generalizing last kept with
  | nil =>
    cases swept
    simp
  | cons e rest ih =>
    obtain ⟨first, sorted⟩ := List.pairwise_cons.mp sorted
    have keep : ∀ {kept}, (do return e :: (← sweep (some e) rest)) = Except.ok kept →
        ∃ others, sweep (some e) rest = .ok others ∧ kept = e :: others := by
      intro kept run
      obtain ⟨others, later, same⟩ := Sandbox.bind_ok run
      cases same
      exact ⟨others, later, rfl⟩
    have kept_spec : ∀ {others}, sweep (some e) rest = .ok others →
        (e :: others).Pairwise (fun a b => a.stop ≤ b.start) ∧
          ∀ d ∈ e :: rest, ∃ k ∈ e :: others, d.Within k.start k.stop := by
      intro others later
      obtain ⟨apart, after, covered⟩ := ih sorted (by simpa using first) later
      refine ⟨List.pairwise_cons.mpr ⟨after e rfl, apart⟩, fun d member => ?_⟩
      rcases List.mem_cons.mp member with rfl | later
      · exact ⟨d, .head _, le_rfl, le_rfl⟩
      · simpa using covered d later
    cases last with
    | none =>
      obtain ⟨others, later, rfl⟩ := keep swept
      obtain ⟨apart, covered⟩ := kept_spec later
      exact ⟨apart, by simp, by simpa using covered⟩
    | some k =>
      have sortedHere := precedes_iff.mp (behind k rfl e (.head _))
      rw [sweep] at swept
      split at swept
      case isTrue inside =>
        obtain ⟨apart, after, covered⟩ := ih sorted (fun k' same d member => behind k' same d (.tail _ member)) swept
        refine ⟨apart, after, fun d member => ?_⟩
        rcases List.mem_cons.mp member with rfl | later
        · exact ⟨k, by simp, by unfold Within; omega⟩
        · exact covered d later
      case isFalse outside =>
        split at swept
        · cases swept
        · rename_i clear
          obtain ⟨others, later, rfl⟩ := keep swept
          obtain ⟨apart, covered⟩ := kept_spec later
          refine ⟨apart, ?_, fun d member => ?_⟩
          · rintro _ ⟨⟩ d member
            rcases List.mem_cons.mp member with rfl | later
            · omega
            · have sortedLater := precedes_iff.mp (first d (sweep_subset ‹_› later))
              omega
          · obtain ⟨k', member', within⟩ := covered d member
            exact ⟨k', by simpa using Or.inr (by simpa using member'), within⟩

end PlacedEdit

namespace Edit

variable {starts : List Nat} {edits : List Edit} {kept : List PlacedEdit}

theorem outermost_spec (isKept : outermost starts edits = .ok kept) :
    kept.Pairwise (fun a b => a.stop ≤ b.start) ∧ (∀ k ∈ kept, k.edit ∈ edits ∧ k.edit.place starts = .ok k) ∧
      ∀ e ∈ edits, ∃ p, e.place starts = .ok p ∧ ∃ k ∈ kept, p.Within k.start k.stop := by
  refine ⟨?_, fun k member => mem_outermost isKept member, fun e member => ?_⟩
  all_goals
    obtain ⟨all, placed, swept⟩ := Sandbox.bind_ok isKept
    have sorted := List.pairwise_mergeSort PlacedEdit.precedes_trans PlacedEdit.precedes_total all
    obtain ⟨apart, -, covered⟩ := PlacedEdit.sweep_spec sorted (by simp) swept
  · exact apart
  · obtain ⟨p, inAll, isPlace⟩ := Sandbox.forall₂_exists (Sandbox.mapM_ok placed) member
    exact ⟨p, isPlace, by simpa using covered p (List.mem_mergeSort.mpr inAll)⟩

end Edit

theorem Text.splice_spec {source text : Text} {edits : List Edit} {a b : Anchor}
    (written : source.splice edits (some (a, b)) = .ok text) :
    ∃ lo hi all, offsetIn source.lineStarts a = some lo ∧ offsetIn source.lineStarts b = some hi ∧
      Edit.outermost source.lineStarts edits = .ok all ∧
      text = PlacedEdit.write source lo hi (all.filter fun k => lo ≤ k.start && k.stop ≤ hi) := by
  unfold Text.splice at written
  dsimp only at written
  cases isStart : offsetIn source.lineStarts a with
  | none =>
    rw [isStart] at written
    cases written
  | some lo =>
    cases isStop : offsetIn source.lineStarts b with
    | none =>
      rw [isStart, isStop] at written
      cases written
    | some hi =>
      rw [isStart, isStop] at written
      change (Edit.outermost source.lineStarts edits >>= fun kept =>
        Except.ok (PlacedEdit.write source lo hi (kept.filter fun k => lo ≤ k.start && k.stop ≤ hi))) = _ at written
      obtain ⟨all, isKept, same⟩ := Sandbox.bind_ok written
      cases same
      exact ⟨lo, hi, all, rfl, rfl, isKept, rfl⟩

/-! ## Calls replaced one after another -/

/-- Calls were replaced one after another, each by an expression. -/
inductive Rewriting.Replaces : List CallSite → Rewriting → Prop where
  | none : Replaces [] {}
  | next {before : List CallSite} {r r' : Rewriting} {site : CallSite} {expression : Text} {edit : Edit}
      (earlier : Replaces before r) (replaced : r.expand site expression = .ok (r', edit)) :
      Replaces (before ++ [site]) r'

/-- In the tree a call is replaced by what its expression reads as, and in the text by the expression. -/
theorem Rewriting.Replaces.written {before : List CallSite} {r : Rewriting} (replaces : Replaces before r) :
    r.expansions.map Expansion.site = before ∧ List.Forall₂ (fun x e => ∃ expression,
      parseExpression expression = .ok x.result ∧ e = Pass.editOf x expression) r.expansions r.edits := by
  induction replaces with
  | none => exact ⟨rfl, .nil⟩
  | next _ replaced ih =>
    obtain ⟨result, parsed, rfl, -, rfl⟩ := Pass.expand_eq_ok replaced
    exact ⟨by simp [ih.1], List.rel_append ih.2 (.cons ⟨_, parsed, rfl⟩ .nil)⟩

theorem Rewriting.Replaces.result_of {before : List CallSite} {r : Rewriting} (replaces : Replaces before r) {e : Edit}
    (member : e ∈ r.edits) : ∃ x ∈ r.expansions, ∃ expression,
      parseExpression expression = .ok x.result ∧ e = Pass.editOf x expression :=
  Sandbox.forall₂_exists replaces.written.2.flip member

namespace Pass

variable {σ : Type} {c : Context σ}

/-- The calls that are recorded together: those of the file outside its macros, or those in one of its macros. -/
def Context.Recorded (c : Context σ) (sites : List CallSite) : Prop :=
  sites = c.scan.sites ∨ ∃ d ∈ c.scan.definitions, sites = d.calls

def Context.Stands (c : Context σ) (site : CallSite) (done : Rewriting) : Prop :=
  ∃ before after, c.Recorded (before ++ site :: after) ∧ done.Replaces before

/-- A text is that of the arguments of a call, with calls replaced that stand in front of it. -/
def Context.Forwards (c : Context σ) (site : CallSite) (arguments : Text) : Prop :=
  ∃ done, c.Stands site done ∧
    c.source.splice done.edits (some (site.argsSpan.start, site.argsSpan.stop)) = .ok arguments

/-- A macro is asked for when the calls in front are replaced, and runs with the arguments of a call; then the call is
replaced itself. -/
def Event.Forwards (c : Context σ) : Event → Prop
  | .asks _ _ site done _ => c.Stands site done
  | .runs _ call _ => c.Forwards call.site call.arguments
  | .writes site edit => ∃ done done' text, c.Stands site done ∧ done.expand site text = .ok (done', edit)

theorem forwards_traceSites {result : Definition → CallSite → Text → PassM σ Text}
    {inner : Definition → CallSite → Text → PassState σ → List Event} (chain : List String)
    (below : ∀ d ∈ c.scan.definitions, ∀ site arguments s, c.Forwards site arguments →
      ∀ event ∈ inner d site arguments s, event.Forwards c)
    {before : List CallSite} {r : Rewriting} {sites : List CallSite} (recorded : c.Recorded (before ++ sites))
    (known : ∀ site ∈ sites, ∃ d, c.scan.definition? site.name = some d) (replaces : r.Replaces before)
    (s : PassState σ) : ∀ event ∈ c.traceSites result inner chain r sites s, event.Forwards c := by
  induction sites generalizing before r s with
  | nil => simp [Context.traceSites]
  | cons site rest ih =>
    intro event member
    have stands : c.Stands site r := ⟨before, rest, recorded, replaces⟩
    obtain ⟨d, isKnown⟩ := known site (.head _)
    unfold Context.traceSites at member
    rw [isKnown] at member
    dsimp only at member
    split at member
    · cases member
    · rename_i arguments written
      rw [List.cons_append, List.mem_cons, List.mem_append] at member
      rcases member with rfl | inside | later
      · exact stands
      · exact below d (Scan.definition?_eq_some isKnown).1 site arguments s ⟨r, stands, written⟩ event inside
      · split at later
        · cases later
        · split at later
          · cases later
          · rename_i replaced
            rcases List.mem_cons.mp later with rfl | later
            · exact ⟨r, _, _, stands, replaced⟩
            · exact ih (by simpa using recorded) (fun site' member' => known site' (.tail _ member'))
                (replaces.next replaced) _ event later

/-- Whatever runs while the result of a macro is got, runs with the arguments of its call. -/
theorem forwards_traceMacro (known : ∀ d ∈ c.scan.definitions, ∀ site ∈ d.calls, ∃ d', c.scan.definition? site.name = some d')
    (free : Nat) (chain : List String) : ∀ d ∈ c.scan.definitions, ∀ site arguments s, c.Forwards site arguments →
      ∀ event ∈ c.traceMacro free chain d site arguments s, event.Forwards c := by
  induction free generalizing chain with
  | zero => simp [Context.traceMacro]
  | succ free ih =>
    intro d isDefinition site arguments s forwards event member
    unfold Context.traceMacro at member
    split at member
    · cases member
    · split at member
      · rcases List.mem_append.mp member with body | last
        · exact forwards_traceSites (chain ++ [d.name]) (ih (chain ++ [d.name]))
            (show c.Recorded ([] ++ d.calls) from .inr ⟨d, isDefinition, rfl⟩) (known d isDefinition) .none _ event body
        · split at last
          · cases last
          · obtain rfl := List.mem_singleton.mp last
            exact forwards
      · cases member

theorem forwards_trace {settings : Settings} {source path : Text} {tree : Tree} {scan : Scan}
    (isScanned : scanned settings source path = .ok (tree, scan)) (execute : Executor σ) (s : PassState σ) :
    let c : Context σ := ⟨settings, execute, source, source.lines, scan⟩
    ∀ event ∈ c.trace s, event.Forwards c := by
  intro c
  have found := found_of_scanned isScanned
  have known : ∀ d ∈ c.scan.definitions, ∀ site ∈ d.calls, ∃ d', c.scan.definition? site.name = some d' :=
    fun d isDefinition site member => found.known (.inr ⟨d, isDefinition, member⟩)
  exact forwards_traceSites [] (forwards_traceMacro known _ []) (show c.Recorded ([] ++ scan.sites) from .inl rfl)
    (fun site member => found.known (.inl member)) .none s

end Pass

/-! ## The text of the arguments -/

/-- A text is that of the arguments of a call, from the end of what it calls to its end, where calls that were replaced
stand as their results. -/
structure Rewriting.Forwards (source : Text) (done : Rewriting) (site : CallSite) (arguments : Text) (lo hi : Int)
    (kept : List PlacedEdit) : Prop where
  start : Text.offsetIn source.lineStarts site.argsSpan.start = some lo
  stop : Text.offsetIn source.lineStarts site.argsSpan.stop = some hi
  text : arguments = PlacedEdit.write source lo hi kept
  apart : kept.Pairwise fun a b => a.stop ≤ b.start
  inside : ∀ k ∈ kept, k.Within lo hi
  results : ∀ k ∈ kept, ∃ x ∈ done.expansions, ∃ expression, parseExpression expression = .ok x.result ∧
    k.edit = Pass.editOf x expression
  /-- A replaced call among the arguments is in the text, unless it lies in another one that is. -/
  all : ∀ e ∈ done.edits, ∃ p, e.place source.lineStarts = .ok p ∧ ∃ k : PlacedEdit, p.Within k.start k.stop ∧
    (k ∈ kept ∨ ¬ k.Within lo hi)

open Pass in
/-- Every macro that a pass runs gets the arguments of a call of the file.  The text of the arguments is that of the file
from the end of what the call names to the end of the call, where the calls stand as their results that were replaced
before it; these are calls recorded in front of it. -/
theorem arguments_forwarded {σ : Type} {settings : Settings} {source path : Text} {tree : Tree} {scan : Scan}
    (isScanned : scanned settings source path = .ok (tree, scan)) (execute : Executor σ) (s : PassState σ) :
    let c : Context σ := ⟨settings, execute, source, source.lines, scan⟩
    ∃ calls, ((expandMacros settings execute source path).outcome s).2.runs = s.runs ++ calls ∧
      ∀ call ∈ calls, ∃ before after, ∃ done : Rewriting, ∃ lo hi kept,
        c.Recorded (before ++ call.site :: after) ∧ done.Replaces before ∧
        (∃ node ∈ tree.nodes, call.site.Of source.lines node) ∧
        done.Forwards source call.site call.arguments lo hi kept := by
  intro c
  have found := found_of_scanned isScanned
  refine ⟨_, runs_trace isScanned execute s, fun call member => ?_⟩
  obtain ⟨event, inTrace, isRun⟩ := List.mem_filterMap.mp member
  have forwards := forwards_trace isScanned execute _ event inTrace
  cases event with
  | asks => cases isRun
  | writes => cases isRun
  | runs chain call' cache =>
    cases isRun
    obtain ⟨done, ⟨before, after, recorded, replaces⟩, written⟩ := forwards
    obtain ⟨lo, hi, all, isStart, isStop, isKept, text⟩ := Text.splice_spec written
    obtain ⟨apart, each, covered⟩ := Edit.outermost_spec isKept
    have here : call.site ∈ before ++ call.site :: after := by simp
    refine ⟨before, after, done, lo, hi, _, recorded, replaces, ?_, isStart, isStop, text, apart.filter _, ?_, ?_, ?_⟩
    · rcases recorded with isAll | ⟨d, isDefinition, isAll⟩
      · exact found.site_of (.inl (isAll ▸ here))
      · exact found.site_of (.inr ⟨d, isDefinition, isAll ▸ here⟩)
    · intro k inKept
      simpa [PlacedEdit.Within] using (List.mem_filter.mp inKept).2
    · intro k inKept
      exact replaces.result_of (each k (List.mem_filter.mp inKept).1).1
    · intro e inEdits
      obtain ⟨p, isPlace, k, inAll, within⟩ := covered e inEdits
      refine ⟨p, isPlace, k, within, ?_⟩
      by_cases inside : k.Within lo hi
      · exact .inl (List.mem_filter.mpr ⟨inAll, by simpa [PlacedEdit.Within] using inside⟩)
      · exact .inr inside

/-- A macro is called in the arguments of another. -/
def calledInArguments : Text :=
  chars "def a(n):\n    'use macro'\n    return n\ndef b(n):\n    'use macro'\n    return n\nx = b(n=a(1))\n"

open Pass in
/-- The outer macro gets the result of the inner one. -/
theorem calledInArguments_forwarded :
    let execute : Executor Unit := fun _ world => ⟨.ok ['7'], [], world⟩
    let ended := ((expandMacros {} execute calledInArguments (chars "m.py")).outcome { world := () }).2
    ended.runs.map Invocation.arguments = [chars "(1)", chars "(n=7)"] ∧
    ∃ tree scan calls, ended.runs = calls ∧ scanned {} calledInArguments (chars "m.py") = .ok (tree, scan) ∧
      ∀ call ∈ calls, ∃ before after, ∃ done : Rewriting, ∃ lo hi kept,
        (⟨{}, execute, calledInArguments, calledInArguments.lines, scan⟩ : Context Unit).Recorded
          (before ++ call.site :: after) ∧
        done.Replaces before ∧ (∃ node ∈ tree.nodes, call.site.Of calledInArguments.lines node) ∧
        done.Forwards calledInArguments call.site call.arguments lo hi kept := by
  intro execute
  dsimp only
  have evaluated : ((scanned {} calledInArguments (chars "m.py")).toOption.map fun file =>
      (runsOf ((⟨{}, execute, calledInArguments, calledInArguments.lines, file.2⟩ : Context Unit).trace
        (scannedState {} calledInArguments (chars "m.py") { world := () }))).map Invocation.arguments) =
      some [chars "(1)", chars "(n=7)"] := by
    rw [show calledInArguments = _ from chars_ofList _]
    decide +kernel
  cases isScanned : scanned {} calledInArguments (chars "m.py") with
  | error e =>
    rw [isScanned] at evaluated
    cases evaluated
  | ok file =>
    rw [isScanned] at evaluated
    obtain ⟨calls, runs, each⟩ := arguments_forwarded isScanned execute { world := () }
    refine ⟨?_, file.1, file.2, calls, runs, rfl, each⟩
    exact (congrArg _ (runs_trace isScanned execute { world := () })).trans (Option.some.inj evaluated)

/-- The name of the macro stands in brackets where it is called. -/
def bracketedCallee : Text := chars "def m(a=0):\n    'use macro'\n    return a\nx = (m)(1)\n"

/-- The text of the arguments begins inside the brackets, and behind the name of the macro it does not read as a
call. -/
theorem bracketedCallee_unread :
    ((Pass.scanned {} bracketedCallee (chars "m.py")).toOption.map fun file => file.2.sites.map fun site : CallSite =>
      (site.name, (bracketedCallee.splice [] (some (site.argsSpan.start, site.argsSpan.stop))).toOption)) =
      some [("m", some (chars ")(1)"))] ∧
    (parseExpression (chars "m)(1)")).toOption = none ∧
    (parseExpression (chars "m(1)")).toOption.map Tree.kind = some .call := by
  rw [show bracketedCallee = _ from chars_ofList _]
  refine ⟨?_, ?_, ?_⟩ <;> decide +kernel

end MacroExpand
