import MacroExpand.Proofs.Covering
import MacroExpand.Proofs.Forwarding

/-!
# Edits of a pass never clash

In a file whose calls and statements stand apart or one inside the other, edits for calls and for statements of macros
do, too (`Scan.MayWrite.nest`), and a pass records no others.  What is left is the order in which it replaces calls.
Calls that are recorded together are replaced in their order, and a call is recorded behind those that stand in it.
Between them the calls in a macro are replaced when its result is computed, which happens once if it goes well
(`Pass.Context.Replacing`), and no call is recorded in two macros (`Pass.Context.Sorted`).  So no call is replaced
twice, and none before those that stand in it; the other edits in front of a call keep to its arguments.
-/

set_option autoImplicit false

namespace MacroExpand

/-! ## Passes that clash -/

/-- A pass fails because edits overlap or because a call is replaced already. -/
inductive PassError.Clashes : PassError → Prop where
  | overlap (line : Int) : Clashes (.emit (.edit (.overlapping line)))
  | again (name : String) (line : Nat) : Clashes (.expansion (.alreadyExpanded name line))

/-- Edits that are disjoint or lie one inside the other are put in order. -/
theorem Edit.outermost_ne_overlapping {source : Text} {edits : List Edit} {line : Int}
    (nest : ∀ e ∈ edits, ∀ e' ∈ edits, e.Nest source e') :
    outermost source.lineStarts edits ≠ .error (.overlapping line) := by
  obtain ⟨kept, isKept⟩ : ∃ kept, outermost source.lineStarts edits = .ok kept := by
    refine outermost_ok (fun e member => ?_) fun e member e' member' p p' isPlace isPlace' => ?_
    · obtain ⟨p, -, isPlace, -⟩ := nest e member e member
      exact ⟨p, isPlace⟩
    · obtain ⟨q, q', isPlaced, isPlaced', nests⟩ := nest e member e' member'
      cases isPlace.symm.trans isPlaced
      cases isPlace'.symm.trans isPlaced'
      exact nests
  rw [isKept]
  exact nofun

theorem Emit.checkLines_ne_overlapping {source : Text} {kept : List PlacedEdit} {line : Int} :
    checkLines source kept ≠ .error (.overlapping line) := by
  induction kept with
  | nil => exact fun failed => by cases failed
  | cons k rest ih =>
    rw [checkLines]
    split
    · exact ih
    · exact fun failed => by cases failed

/-- Emitting does not refuse such edits because they overlap. -/
theorem emit_ne_overlapping {tree : Tree} {source : Text} {edits : List Edit} {options : EmitOptions} {line : Int}
    (nest : ∀ e ∈ edits, ∀ e' ∈ edits, e.Nest source e') :
    emit tree source edits options ≠ .error (.edit (.overlapping line)) := by
  unfold emit
  dsimp only
  split
  · refine Except.bind_ne_error (EmitError.orEdit_ne (Edit.outermost_ne_overlapping nest)) fun kept isKept => ?_
    have fromEdits : ∀ e ∈ kept.map PlacedEdit.edit, e ∈ edits :=
      List.forall_mem_map.mpr fun k member => (Edit.mem_outermost (EmitError.ok_of_orEdit isKept) member).1
    have kept_nest : ∀ e ∈ kept.map PlacedEdit.edit, ∀ e' ∈ kept.map PlacedEdit.edit, e.Nest source e' :=
      fun e member e' member' => nest e (fromEdits e member) e' (fromEdits e' member')
    refine Except.bind_ne_error (EmitError.orEdit_ne Emit.checkLines_ne_overlapping) fun _ _ => ?_
    refine Except.bind_ne_error
      (EmitError.orEdit_ne (Text.splice_ne nofun (Edit.outermost_ne_overlapping kept_nest))) fun code _ => ?_
    split
    · exact Except.bind_ne_error (Emit.annotate_ne_edit nofun) fun _ _ failed => by cases failed
    · exact fun failed => by cases failed
  · split
    · exact fun failed => by cases failed
    · exact fun failed => by cases failed

namespace Pass

variable {σ : Type} {c : Context σ}

/-- Calls that were replaced nest, and so does what is replaced next with them; no call is replaced twice. -/
structure Context.Steady (c : Context σ) : Prop where
  known : ∀ sites, c.Recorded sites → ∀ site ∈ sites, ∃ d, c.scan.definition? site.name = some d
  apart : ∀ site done, c.Stands site done → ∀ e ∈ done.edits, ∀ e' ∈ done.edits, e.Nest c.source e'
  isNew : ∀ site done, c.Stands site done → ∀ x ∈ done.expansions, x.site.label ≠ site.label

theorem ofRunError_not_clashes {d : Definition} {e : RunError} : ¬ (ofRunError d e).Clashes := by
  unfold ofRunError
  split <;> exact nofun

mutual

/-- Getting the result of a macro does not fail because edits clash. -/
theorem Expands.not_clashes {chain : List String} {d : Definition} {site : CallSite} {arguments : Text} {t u : Trail}
    {result : Except PassError Text} (expands : Expands c chain d site arguments t result u) (steady : c.Steady)
    (isDefinition : d ∈ c.scan.definitions) : ∀ e, result = .error e → ¬ e.Clashes :=
  match expands with
  | .cycle _ | .waits _ _ _ => by
      rintro _ ⟨⟩ clashes
      cases clashes
  | .hit _ _ | .runs _ _ _ _ _ => fun _ same => by cases same
  | .breaks _ _ _ _ _ => by
      rintro _ ⟨⟩
      exact ofRunError_not_clashes
  | .fails _ _ _ body => fun e same =>
      (body.not_clashes steady (show c.Recorded ([] ++ d.calls) from .inr ⟨d, isDefinition, rfl⟩) .none).1 e
        (congrArg Except.error (Except.error.inj same))

/-- Nor does replacing calls, and it replaces each of them. -/
theorem ExpandsAll.not_clashes {chain : List String} {r : Rewriting} {before sites : List CallSite} {t u : Trail}
    {result : Except PassError Rewriting} (expands : ExpandsAll c chain r sites t result u) (steady : c.Steady)
    (recorded : c.Recorded (before ++ sites)) (replaces : r.Replaces before) :
    (∀ e, result = .error e → ¬ e.Clashes) ∧ ∀ r', result = .ok r' → r'.Replaces (before ++ sites) :=
  match expands with
  | .done => by
      refine ⟨fun _ same => (by cases same), ?_⟩
      rintro _ ⟨⟩
      rwa [List.append_nil]
  | .skips unknown _ => by
      obtain ⟨d, isKnown⟩ := steady.known _ recorded _ (List.mem_append_right _ (.head _))
      cases unknown.symm.trans isKnown
  | .stops _ unwritten => by
      refine ⟨?_, fun _ same => by cases same⟩
      rintro _ ⟨⟩ clashes
      cases clashes
      have nest := steady.apart _ r ⟨before, _, recorded, replaces⟩
      exact absurd unwritten (Text.splice_ne nofun (Edit.outermost_ne_overlapping nest))
  | .fails known _ call =>
      ⟨fun e same => call.not_clashes steady (Scan.definition?_eq_some known).1 e
        (congrArg Except.error (Except.error.inj same)), fun _ same => by cases same⟩
  | .refuses _ _ _ refused => by
      refine ⟨?_, fun _ same => by cases same⟩
      rintro _ ⟨⟩ clashes
      cases clashes
      obtain ⟨f, isFault, -⟩ := fault_of_unreplaced (steady.isNew _ r ⟨before, _, recorded, replaces⟩) refused
      cases isFault
  | .replaces _ _ _ replaced next => by
      rw [← List.singleton_append, ← List.append_assoc] at recorded ⊢
      exact next.not_clashes steady recorded (replaces.next replaced)

end

/-- Replacing calls one after another replaces each of them, however their results are got. -/
theorem replaces_of_expandSites {result : Definition → CallSite → Text → PassM σ Text} {before sites : List CallSite}
    {r r' : Rewriting} {s t : PassState σ} (known : ∀ site ∈ sites, ∃ d, c.scan.definition? site.name = some d)
    (replaces : r.Replaces before) (ended : (expandSites c result r sites).outcome s = (.ok r', t)) :
    r'.Replaces (before ++ sites) := by
  induction sites generalizing before r s with
  | nil =>
    cases ended
    rwa [List.append_nil]
  | cons site rest ih =>
    obtain ⟨d, isKnown⟩ := known site (.head _)
    rw [outcome_expandSites_cons, isKnown] at ended
    dsimp only at ended
    split at ended
    · cases ended
    · split at ended
      · cases ended
      · split at ended
        · cases ended
        · rename_i replaced
          rw [← List.singleton_append, ← List.append_assoc]
          exact ih (fun site' member => known site' (.tail _ member)) (replaces.next replaced) ended

/-- A call that is recorded with others is one of the file or in a macro. -/
theorem Context.Recorded.site {sites : List CallSite} (recorded : c.Recorded sites) {site : CallSite}
    (member : site ∈ sites) : site ∈ c.scan.sites ∨ ∃ d ∈ c.scan.definitions, site ∈ d.calls := by
  rcases recorded with same | ⟨d, isDefinition, same⟩
  · exact .inl (same ▸ member)
  · exact .inr ⟨d, isDefinition, same ▸ member⟩

/-! ## The order in which calls are replaced -/

/-- The call that is come to or replaced. -/
def Event.site? : Event → Option CallSite
  | .asks _ _ site _ _ => some site
  | .runs _ _ _ => none
  | .writes site _ => some site

/-- The edit that is recorded when a call is replaced. -/
def Event.edit? : Event → Option Edit
  | .writes _ edit => some edit
  | _ => none

/-- The label of the call that is replaced. -/
def Event.replaced? : Event → Option Nat
  | .writes site _ => some site.label
  | _ => none

/-- The edits of a pass over a file: those that are recorded when calls are replaced, and those that the file is emitted
with if the pass comes to that. -/
def Context.edits (c : Context σ) (tree : Tree) (s : PassState σ) : List Edit :=
  (c.trace s).filterMap Event.edit? ++
    match (expandSites c (expandMacro c c.scan.definitions.length []) {} c.scan.sites).outcome s with
    | (.ok r, _) =>
      r.edits ++ ((Removal.Context.of c.scan.definitions c.lines).strip (Rewriting.apply r.expansions tree)).edits
    | (.error _, _) => []

/-- Where two calls are recorded together, one stands in front of the other. -/
def Context.Precedes (c : Context σ) (site site' : CallSite) : Prop :=
  ∀ sites, c.Recorded sites → site ∈ sites → site' ∈ sites →
    ∃ before after, sites = before ++ site' :: after ∧ site ∈ before

/-- What comes after a call is replaced is about calls behind it. -/
def Event.Before (c : Context σ) (a b : Event) : Prop :=
  ∀ site edit, a = .writes site edit → ∀ site', b.site? = some site' → c.Precedes site site'

/-- A macro has no result and is not being computed. -/
def Context.Fresh (c : Context σ) (cache : Cache CacheKey Text) (d : Definition) : Prop :=
  cache.get? (c.key d) = none ∧ cache.ticket? (c.key d) = none

/-- The results that are stored stay so, and the same keys are being computed. -/
def Later (cache cache' : Cache CacheKey Text) : Prop :=
  (∀ key text, cache.get? key = some text → cache'.get? key = some text) ∧ cache'.inflight = cache.inflight

theorem Later.trans {cache cache' cache'' : Cache CacheKey Text} (first : Later cache cache') (last : Later cache' cache'') :
    Later cache cache'' :=
  ⟨fun key text found => last.1 key text (first.1 key text found), last.2.trans first.2⟩

theorem Context.Fresh.before {cache cache' : Cache CacheKey Text} {d : Definition} (fresh : c.Fresh cache' d)
    (later : Later cache cache') : c.Fresh cache d := by
  refine ⟨?_, ?_⟩
  · by_contra some
    obtain ⟨text, found⟩ := Option.ne_none_iff_exists'.mp some
    cases fresh.1.symm.trans (later.1 _ _ found)
  · have idle := fresh.2
    rwa [Cache.ticket?, later.2] at idle

/-- No call is recorded in two macros, or in a macro and outside the macros. -/
structure Context.Sorted (c : Context σ) : Prop where
  inner : ∀ d ∈ c.scan.definitions, ∀ d' ∈ c.scan.definitions, ∀ site ∈ d.calls, site ∈ d'.calls → d = d'
  outer : ∀ d ∈ c.scan.definitions, ∀ site ∈ c.scan.sites, site ∉ d.calls

/-- What is done while calls are replaced concerns these calls and those in macros that had no result, and these
macros have one if all went well. -/
structure Context.Replacing (c : Context σ) (sites : List CallSite) (cache cache' : Cache CacheKey Text) (succeeds : Prop)
    (events : List Event) : Prop where
  inOrder : events.Pairwise (Event.Before c)
  fresh : ∀ event ∈ events, ∀ site, event.site? = some site →
    site ∈ sites ∨ ∃ d ∈ c.scan.definitions, c.Fresh cache d ∧ site ∈ d.calls
  stored : succeeds → ∀ event ∈ events, ∀ site, event.site? = some site →
    site ∈ sites ∨ ∀ d ∈ c.scan.definitions, site ∈ d.calls → ∃ text, cache'.get? (c.key d) = some text

/-- What is done to get the result of a macro concerns calls in macros only. -/
def Context.GetsInOrder (c : Context σ) (result : Definition → CallSite → Text → PassM σ Text)
    (inner : Definition → CallSite → Text → PassState σ → List Event) : Prop :=
  ∀ d ∈ c.scan.definitions, ∀ site arguments s,
    Later s.cache ((result d site arguments).outcome s).2.cache ∧
    c.Replacing [] s.cache ((result d site arguments).outcome s).2.cache
      (∃ text, ((result d site arguments).outcome s).1 = .ok text) (inner d site arguments s)

theorem Context.Replacing.none {sites : List CallSite} {cache cache' : Cache CacheKey Text} {succeeds : Prop} :
    c.Replacing sites cache cache' succeeds [] :=
  ⟨.nil, fun _ none => absurd none List.not_mem_nil, fun _ _ none => absurd none List.not_mem_nil⟩

section Sorted

variable (sorted : c.Sorted)
include sorted

/-- The calls of a macro are recorded with no others. -/
theorem Context.Sorted.eq_calls {sites : List CallSite} (recorded : c.Recorded sites) {site : CallSite}
    (member : site ∈ sites) {d : Definition} (isDefinition : d ∈ c.scan.definitions) (inside : site ∈ d.calls) :
    sites = d.calls := by
  rcases recorded with rfl | ⟨d', isDefinition', rfl⟩
  · exact absurd inside (sorted.outer d isDefinition site member)
  · rw [sorted.inner d isDefinition d' isDefinition' site inside member]

/-- No call is recorded in two lists. -/
theorem Context.Sorted.eq_recorded {sites sites' : List CallSite} (recorded : c.Recorded sites)
    (recorded' : c.Recorded sites') {site : CallSite} (member : site ∈ sites) (member' : site ∈ sites') :
    sites = sites' := by
  rcases recorded' with rfl | ⟨d, isDefinition, rfl⟩
  · rcases recorded with same | ⟨d, isDefinition, rfl⟩
    · exact same
    · exact absurd member (sorted.outer d isDefinition site member')
  · exact sorted.eq_calls recorded member isDefinition member'

/-- A call precedes those that are recorded behind it. -/
theorem Context.Sorted.precedes {before after : List CallSite} {site site' : CallSite}
    (recorded : c.Recorded (before ++ site' :: after)) (member : site ∈ before) : c.Precedes site site' := by
  intro sites isRecorded isSite _
  obtain rfl := sorted.eq_recorded isRecorded recorded isSite (List.mem_append_left _ member)
  exact ⟨before, after, rfl, member⟩

end Sorted

namespace Context.Replacing

variable {sites rest : List CallSite} {site : CallSite} {cache cache' cache'' : Cache CacheKey Text} {succeeds succeeds' : Prop}
  {events events' : List Event}

theorem mono (replacing : c.Replacing rest cache cache' succeeds events) (all : rest ⊆ sites)
    (same : succeeds' → succeeds) : c.Replacing sites cache cache' succeeds' events :=
  ⟨replacing.inOrder, fun event member site' isSite => (replacing.fresh event member site' isSite).imp_left fun x => all x,
    fun isDone event member site' isSite => (replacing.stored (same isDone) event member site' isSite).imp_left fun x => all x⟩

theorem asks (replacing : c.Replacing sites cache cache' succeeds events) (member : site ∈ sites) (chain : List String)
    (d : Definition) (done : Rewriting) (now : Cache CacheKey Text) :
    c.Replacing sites cache cache' succeeds (.asks chain d site done now :: events) where
  inOrder := List.pairwise_cons.mpr ⟨fun _ _ _ _ same => (by cases same), replacing.inOrder⟩
  fresh := List.forall_mem_cons.mpr ⟨fun _ same => .inl (Option.some.inj same ▸ member), replacing.fresh⟩
  stored isDone := List.forall_mem_cons.mpr ⟨fun _ same => .inl (Option.some.inj same ▸ member), replacing.stored isDone⟩

/-- After a call is replaced come those behind it, and calls in other macros. -/
theorem writes (sorted : c.Sorted) {before : List CallSite} (recorded : c.Recorded (before ++ site :: rest))
    (own : ∀ d ∈ c.scan.definitions, c.Fresh cache d → site ∉ d.calls)
    (replacing : c.Replacing rest cache cache' succeeds events) (edit : Edit) :
    c.Replacing (site :: rest) cache cache' succeeds (.writes site edit :: events) where
  inOrder := by
    refine List.pairwise_cons.mpr ⟨fun b later => ?_, replacing.inOrder⟩
    rintro _ _ ⟨⟩ site' isSite sites isRecorded member member'
    rcases replacing.fresh b later site' isSite with isRest | ⟨d, isDefinition, fresh, inside⟩
    · obtain ⟨front, back, rfl⟩ := List.append_of_mem isRest
      have recorded : c.Recorded ((before ++ site :: front) ++ site' :: back) := by simpa using recorded
      exact sorted.precedes recorded (by simp) sites isRecorded member member'
    · obtain rfl := sorted.eq_calls isRecorded member' isDefinition inside
      exact absurd member (own d isDefinition fresh)
  fresh := List.forall_mem_cons.mpr ⟨fun _ same => .inl (Option.some.inj same ▸ .head _),
    fun event later site' isSite => (replacing.fresh event later site' isSite).imp_left (.tail _)⟩
  stored isDone := List.forall_mem_cons.mpr ⟨fun _ same => .inl (Option.some.inj same ▸ .head _),
    fun event later site' isSite => (replacing.stored isDone event later site' isSite).imp_left (.tail _)⟩

/-- After the result of a macro was got come calls that do not stand in macros that had none before. -/
theorem append (sorted : c.Sorted) (first : c.Replacing [] cache cache' succeeds events) (succeeded : succeeds)
    (later : Later cache cache') (own : ∀ site ∈ sites, ∀ d ∈ c.scan.definitions, c.Fresh cache d → site ∉ d.calls)
    (last : c.Replacing sites cache' cache'' succeeds' events') (later' : Later cache' cache'') :
    c.Replacing sites cache cache'' succeeds' (events ++ events') where
  inOrder := by
    refine List.pairwise_append.mpr ⟨first.inOrder, last.inOrder, fun a inFirst b inLast => ?_⟩
    rintro site edit rfl site' isSite all isRecorded member member'
    obtain ⟨d, isDefinition, fresh, inside⟩ := (first.fresh _ inFirst site rfl).resolve_left List.not_mem_nil
    rcases last.fresh b inLast site' isSite with isOwn | ⟨d', isDefinition', fresh', inside'⟩
    · obtain rfl := sorted.eq_calls isRecorded member isDefinition inside
      exact absurd member' (own site' isOwn d isDefinition fresh)
    · -- a macro whose calls were replaced has a result
      obtain rfl := sorted.eq_calls isRecorded member' isDefinition' inside'
      have stored := (first.stored succeeded _ inFirst site rfl).resolve_left List.not_mem_nil
      obtain ⟨text, found⟩ := stored d' isDefinition' member
      cases fresh'.1.symm.trans found
  fresh := by
    intro event member site isSite
    rcases List.mem_append.mp member with inFirst | inLast
    · exact .inr ((first.fresh event inFirst site isSite).resolve_left List.not_mem_nil)
    · exact (last.fresh event inLast site isSite).imp_right
        fun ⟨d, isDefinition, fresh, inside⟩ => ⟨d, isDefinition, fresh.before later, inside⟩
  stored := by
    intro isDone event member site isSite
    rcases List.mem_append.mp member with inFirst | inLast
    · have stored := (first.stored succeeded event inFirst site isSite).resolve_left List.not_mem_nil
      refine .inr fun d isDefinition inside => ?_
      obtain ⟨text, found⟩ := stored d isDefinition inside
      exact ⟨text, later'.1 _ _ found⟩
    · exact last.stored isDone event inLast site isSite

theorem idle (replacing : c.Replacing sites cache cache' succeeds events)
    (others : ∀ event ∈ events', event.site? = Option.none) :
    c.Replacing sites cache cache' succeeds (events ++ events') where
  inOrder := by
    refine List.pairwise_append.mpr ⟨replacing.inOrder, List.pairwise_of_forall_mem_list fun a member => ?_, ?_⟩
    · rintro b - _ _ rfl
      cases others _ member
    · intro a _ b member _ _ _ site' isSite
      cases (others b member).symm.trans isSite
  fresh event member site' isSite := (List.mem_append.mp member).elim
    (fun inside => replacing.fresh event inside site' isSite) fun other => by cases (others event other).symm.trans isSite
  stored isDone event member site' isSite := (List.mem_append.mp member).elim
    (fun inside => replacing.stored isDone event inside site' isSite)
    fun other => by cases (others event other).symm.trans isSite

end Context.Replacing

/-- Calls are replaced in their order, between them calls in macros. -/
theorem replacing_traceSites (sorted : c.Sorted) {result : Definition → CallSite → Text → PassM σ Text}
    {inner : Definition → CallSite → Text → PassState σ → List Event} (chain : List String)
    (gets : c.GetsInOrder result inner) {before : List CallSite} (r : Rewriting) (sites : List CallSite) (s : PassState σ)
    (recorded : c.Recorded (before ++ sites))
    (own : ∀ site ∈ sites, ∀ d ∈ c.scan.definitions, c.Fresh s.cache d → site ∉ d.calls) :
    let ended := (expandSites c result r sites).outcome s
    Later s.cache ended.2.cache ∧
      c.Replacing sites s.cache ended.2.cache (∃ r', ended.1 = .ok r') (c.traceSites result inner chain r sites s) := by
  induction sites generalizing before r s with
  | nil => exact ⟨⟨fun _ _ found => found, rfl⟩, .none⟩
  | cons site rest ih =>
    have recorded' : c.Recorded ((before ++ [site]) ++ rest) := by rwa [List.append_assoc]
    have ownRest : ∀ site' ∈ rest, ∀ d ∈ c.scan.definitions, c.Fresh s.cache d → site' ∉ d.calls :=
      fun site' member => own site' (.tail _ member)
    rw [outcome_expandSites_cons]
    unfold Context.traceSites
    cases known : c.scan.definition? site.name with
    | none =>
      obtain ⟨later, replacing⟩ := ih r s recorded' ownRest
      exact ⟨later, replacing.mono (List.subset_cons_self _ _) id⟩
    | some d =>
      dsimp only
      cases written : c.source.splice r.edits (some (site.argsSpan.start, site.argsSpan.stop)) with
      | error e => exact ⟨⟨fun _ _ found => found, rfl⟩, .none⟩
      | ok arguments =>
        obtain ⟨later, got⟩ := gets d (Scan.definition?_eq_some known).1 site arguments s
        dsimp only
        rw [List.cons_append]
        rcases ended : (result d site arguments).outcome s with ⟨e | text, t⟩
        · rw [ended] at later got
          dsimp only at later got ⊢
          rw [List.append_nil]
          exact ⟨later, (got.mono (List.nil_subset _) (by rintro ⟨_, ⟨⟩⟩)).asks (.head _) ..⟩
        · rw [ended] at later got
          dsimp only at later got ⊢
          cases replaced : r.expand site text with
          | error e =>
            dsimp only
            rw [List.append_nil]
            exact ⟨later, (got.mono (List.nil_subset _) (by rintro ⟨_, ⟨⟩⟩)).asks (.head _) ..⟩
          | ok pair =>
            obtain ⟨r', edit⟩ := pair
            dsimp only
            obtain ⟨later', replacing⟩ := ih r' { t with log := t.log ++ [Rewriting.entry site] } recorded'
              fun site' member d' isDefinition fresh => ownRest site' member d' isDefinition (fresh.before later)
            have writes := replacing.writes sorted recorded
              (fun d' isDefinition fresh => own site (.head _) d' isDefinition (fresh.before later)) edit
            exact ⟨later.trans later', (got.append sorted ⟨text, rfl⟩ later own writes later').asks (.head _) ..⟩

/-- The calls in a macro are replaced before it runs. -/
theorem expandBody_ok {result : Definition → CallSite → Text → PassM σ Text} {d ready : Definition} {s t : PassState σ}
    (replaced : (expandBody c result d).outcome s = (.ok ready, t)) :
    ∃ r u, (expandSites c result {} d.calls).outcome s = (.ok r, u) ∧ t.cache = u.cache := by
  rw [expandBody] at replaced
  split at replaced
  · rename_i noCalls
    cases replaced
    rw [List.isEmpty_iff.mp noCalls]
    exact ⟨_, _, rfl, rfl⟩
  · obtain ⟨r, u, all, rest⟩ := PassM.exists_of_bind_ok replaced
    cases rest
    exact ⟨r, u, all, rfl⟩

/-- If a macro that had no result comes to one, its calls were replaced, and its result is stored. -/
theorem expandMacro_ok {free : Nat} {chain : List String} {d : Definition} {site : CallSite} {arguments text : Text}
    {s : PassState σ} (isNew : ¬ chain.contains d.name = true) (fresh : c.Fresh s.cache d)
    (ended : ((expandMacro c (free + 1) chain d site arguments).outcome s).1 = .ok text) :
    let body := (expandSites c (expandMacro c free (chain ++ [d.name])) {} d.calls).outcome
      { s with cache := (s.cache.claim (c.key d)).1 }
    let after := ((expandMacro c (free + 1) chain d site arguments).outcome s).2.cache
    (∃ r, body.1 = .ok r) ∧ (∀ key text, body.2.cache.get? key = some text → after.get? key = some text) ∧
      ∃ text, after.get? (c.key d) = some text := by
  intro body after
  obtain ⟨absent, idle⟩ := fresh
  have whole : expandMacro c (free + 1) chain d site arguments = cached (c.key d) (do
      let ready ← expandBody c (expandMacro c free (chain ++ [d.name])) d
      run c ⟨ready, arguments, site⟩) := by
    rw [expandMacro, if_neg isNew]
    rfl
  unfold after
  rw [whole] at ended ⊢
  rcases computed : (do
      let ready ← expandBody c (expandMacro c free (chain ++ [d.name])) d
      run c ⟨ready, arguments, site⟩ : PassM σ Text).outcome { s with cache := (s.cache.claim (c.key d)).1 } with
    ⟨e | found, t⟩
  · rw [outcome_cached_fails absent idle computed] at ended
    cases ended
  · obtain ⟨log, outcome⟩ := outcome_cached_ok absent idle computed
    obtain ⟨ready, u, replaced, ran⟩ := PassM.exists_of_bind_ok computed
    obtain ⟨r, v, all, sameCache⟩ := expandBody_ok replaced
    have isBody : body = (.ok r, v) := all
    rw [outcome_run] at ran
    have ranCache : t.cache = u.cache := congrArg (fun ended => ended.2.cache) ran.symm
    rw [outcome, isBody]
    dsimp only
    rw [Cache.settle_eq, ranCache, sameCache]
    exact ⟨⟨r, rfl⟩, fun key text stored => Cache.put_keeps stored, _, Cache.put_stored _ _ _⟩

/-- The result of a macro is got in order. -/
theorem getsInOrder_expandMacro (sorted : c.Sorted) (free : Nat) (chain : List String)
    (counted : free + chain.length = c.scan.definitions.length) :
    c.GetsInOrder (expandMacro c free chain) (c.traceMacro free chain) := by
  induction free generalizing chain with
  | zero =>
    intro d isDefinition site arguments s
    obtain ⟨_, adds, -⟩ := (expandMacro_expands c 0 chain d site arguments s counted).adds isDefinition
    exact ⟨⟨adds.keeps, adds.inflight⟩, .none⟩
  | succ free ih =>
    intro d isDefinition site arguments s
    obtain ⟨_, adds, -⟩ := (expandMacro_expands c (free + 1) chain d site arguments s counted).adds isDefinition
    refine ⟨⟨adds.keeps, adds.inflight⟩, ?_⟩
    have longer : free + (chain ++ [d.name]).length = c.scan.definitions.length := by
      rw [List.length_append, List.length_singleton]
      omega
    unfold Context.traceMacro
    split
    · exact .none
    rename_i isNew
    split
    · rename_i cache ticket claimed
      obtain ⟨absent, idle, -⟩ := Cache.claim_own claimed
      obtain rfl : (s.cache.claim (c.key d)).1 = cache := congrArg Prod.fst claimed
      -- the macro itself is being computed, the others are as before
      have before : ∀ d', c.Fresh (s.cache.claim (c.key d)).1 d' → c.Fresh s.cache d' ∧ d' ≠ d := by
        rintro d' ⟨absent', idle'⟩
        rw [Cache.get?_claim] at absent'
        rw [Cache.ticket?_claim absent idle] at idle'
        exact ⟨⟨absent', idle'.1⟩, fun same => idle'.2 (same ▸ rfl)⟩
      obtain ⟨-, body⟩ := replacing_traceSites sorted (chain ++ [d.name]) (ih (chain ++ [d.name]) longer) {} d.calls
        { s with cache := (s.cache.claim (c.key d)).1 } (show c.Recorded ([] ++ d.calls) from .inr ⟨d, isDefinition, rfl⟩)
        fun site' member d' isDefinition' fresh' inside =>
          (before d' fresh').2 (sorted.inner d' isDefinition' d isDefinition site' inside member)
      refine .idle ⟨body.inOrder, fun event member site' isSite => ?_, fun succeeds event member site' isSite => ?_⟩ ?_
      · rcases body.fresh event member site' isSite with own | ⟨d', isDefinition', fresh', inside⟩
        · exact .inr ⟨d, isDefinition, ⟨absent, idle⟩, own⟩
        · exact .inr ⟨d', isDefinition', (before d' fresh').1, inside⟩
      · obtain ⟨text, ended⟩ := succeeds
        obtain ⟨all, keeps, stored⟩ := expandMacro_ok isNew ⟨absent, idle⟩ ended
        refine .inr fun d' isDefinition' inside => ?_
        rcases body.stored all event member site' isSite with own | others
        · exact sorted.inner d' isDefinition' d isDefinition site' inside own ▸ stored
        · obtain ⟨text', found⟩ := others d' isDefinition' inside
          exact ⟨text', keeps _ _ found⟩
      · split
        · exact List.forall_mem_nil _
        · exact List.forall_mem_singleton.mpr rfl
    · exact .none

/-- A call that is come to or replaced is recorded. -/
theorem Event.Forwards.recorded {event : Event} (forwards : event.Forwards c) {site : CallSite}
    (isSite : event.site? = some site) : ∃ sites, c.Recorded sites ∧ site ∈ sites := by
  cases event with
  | asks =>
    cases isSite
    obtain ⟨before, after, recorded, -⟩ := forwards
    exact ⟨_, recorded, by simp⟩
  | runs => cases isSite
  | writes =>
    cases isSite
    obtain ⟨_, _, _, ⟨before, after, recorded, -⟩, -⟩ := forwards
    exact ⟨_, recorded, by simp⟩

end Pass

/-! ## Calls and edits of a file -/

/-- An edit writes over a call. -/
def Edit.IsFor (e : Edit) (site : CallSite) : Prop := e.start = site.span.start ∧ e.stop = site.span.stop

theorem Edit.IsFor.replaces {e : Edit} {site : CallSite} {lines : List Text} {call : Tree} (isFor : e.IsFor site)
    (ofCall : site.Of lines call) : e.Replaces lines call := by
  obtain ⟨start, stop⟩ := isFor
  exact ⟨ofCall.isCall, by rw [start, ofCall.span], by rw [stop, ofCall.span]⟩

theorem Rewriting.isFor_of_expand {r r' : Rewriting} {site : CallSite} {text : Text} {edit : Edit}
    (replaced : r.expand site text = .ok (r', edit)) : edit.IsFor site := by
  obtain ⟨result, -, rfl, -, -⟩ := Pass.expand_eq_ok replaced
  exact ⟨rfl, rfl⟩

/-- The edits of replaced calls are for these calls. -/
theorem Rewriting.Replaces.exists_site {before : List CallSite} {r : Rewriting} (replaces : r.Replaces before) {e : Edit}
    (member : e ∈ r.edits) : ∃ site ∈ before, e.IsFor site := by
  obtain ⟨x, isExpansion, expression, -, rfl⟩ := replaces.result_of member
  exact ⟨x.site, replaces.written.1 ▸ List.mem_map_of_mem isExpansion, rfl, rfl⟩

section Files

variable {path : Text} {tree : Tree} {σ : Type} {c : Pass.Context σ}
  (isScanned : Pass.scanned c.settings c.source path = .ok (tree, c.scan))
include isScanned

/-- Two macros whose statements a node stands in are the same. -/
theorem eq_of_node {d d' : Definition} {n : Tree} (isDefinition : d ∈ c.scan.definitions)
    (isDefinition' : d' ∈ c.scan.definitions) (inside : n ∈ d.statement.nodes) (inside' : n ∈ d'.statement.nodes) : d = d' := by
  have found := Pass.found_of_scanned isScanned
  have labelled := labelled_of_scanned isScanned
  have noLambda := noLambda_of_scanned isScanned
  have binds := (wellFormed_of_parseModule (Pass.parsed_of_scanned isScanned)).bindsParts
  have one : d.statement = d'.statement := by
    rcases labelled.nested (statement_of_scanned isScanned isDefinition).1 (statement_of_scanned isScanned isDefinition').1
      inside inside' with within | within
    · exact (found.not_nested labelled binds noLambda isDefinition isDefinition' within).symm
    · exact found.not_nested labelled binds noLambda isDefinition' isDefinition within
  exact List.inj_on_of_nodup_map found.statements_nodup isDefinition isDefinition' one

/-- Two macros that a call stands in are the same. -/
theorem eq_of_call {d d' : Definition} {site site' : CallSite} (isDefinition : d ∈ c.scan.definitions)
    (isDefinition' : d' ∈ c.scan.definitions) (member : site ∈ d.calls) (member' : site' ∈ d'.calls)
    (same : site.label = site'.label) : d = d' := by
  have found := Pass.found_of_scanned isScanned
  have noLambda := noLambda_of_scanned isScanned
  obtain ⟨call, inside, label⟩ := found.call_in_statement noLambda isDefinition member
  obtain ⟨call', inside', label'⟩ := found.call_in_statement noLambda isDefinition' member'
  obtain rfl := (labelled_of_scanned isScanned).eq_of_label
    (Tree.mem_nodes_trans (statement_of_scanned isScanned isDefinition).1 inside)
    (Tree.mem_nodes_trans (statement_of_scanned isScanned isDefinition').1 inside') (by rw [label, label', same])
  exact eq_of_node isScanned isDefinition isDefinition' inside inside'

theorem sorted_of_scanned : c.Sorted where
  inner _ isDefinition _ isDefinition' _ member member' :=
    eq_of_call isScanned isDefinition isDefinition' member member' rfl
  outer _ isDefinition _ member inside :=
    (Pass.found_of_scanned isScanned).calls_disjoint (labelled_of_scanned isScanned) (noLambda_of_scanned isScanned)
      isDefinition (List.mem_map_of_mem inside) (List.mem_map_of_mem member)

/-- Calls of one label are recorded in one list. -/
theorem recorded_unique {sites sites' : List CallSite} {site site' : CallSite}
    (recorded : c.Recorded sites) (recorded' : c.Recorded sites') (member : site ∈ sites) (member' : site' ∈ sites') (same : site.label = site'.label) : sites = sites' := by
  have apart : ∀ d ∈ c.scan.definitions, ∀ outer ∈ c.scan.sites, ∀ inner ∈ d.calls, inner.label ≠ outer.label :=
    fun d isDefinition outer isSite inner isCall same => (Pass.found_of_scanned isScanned).calls_disjoint
      (labelled_of_scanned isScanned) (noLambda_of_scanned isScanned) isDefinition (List.mem_map_of_mem isCall)
      (same ▸ List.mem_map_of_mem isSite)
  rcases recorded with rfl | ⟨d, isDefinition, rfl⟩ <;> rcases recorded' with rfl | ⟨d', isDefinition', rfl⟩
  · rfl
  · exact absurd same.symm (apart d' isDefinition' site member site' member')
  · exact absurd same (apart d isDefinition site' member' site member)
  · rw [eq_of_call isScanned isDefinition isDefinition' member member' same]

/-- No call is recorded twice. -/
theorem recorded_nodup {sites : List CallSite} (recorded : c.Recorded sites) :
    (sites.map CallSite.label).Nodup := by
  have distinct := (Pass.found_of_scanned isScanned).labels_distinct (labelled_of_scanned isScanned)
  rcases recorded with same | ⟨d, isDefinition, same⟩
  · exact same ▸ distinct.1
  · exact same ▸ distinct.2 d isDefinition

/-- A call in front of another one is another one. -/
theorem label_ne_of_precedes {sites sites' : List CallSite} {site site' : CallSite}
    (recorded : c.Recorded sites) (recorded' : c.Recorded sites') (member : site ∈ sites) (member' : site' ∈ sites')
    (precedes : c.Precedes site site') : site.label ≠ site'.label := by
  intro same
  obtain rfl := recorded_unique isScanned recorded recorded' member member' same
  obtain ⟨before, after, rfl, isEarlier⟩ := precedes _ recorded member member'
  have distinct := recorded_nodup isScanned recorded
  rw [List.map_append, List.map_cons] at distinct
  exact (List.nodup_append.mp distinct).2.2 _ (List.mem_map_of_mem isEarlier) _ (.head _) same

/-- The calls that are recorded together are those of a tree. -/
theorem records_of_recorded {sites : List CallSite} (recorded : c.Recorded sites) :
    ∃ t counts, Scan.Records c.scan.macros c.source.lines t counts sites ∧
      ∀ call ∈ t.nodes, call.kind = .call → call ∈ tree.nodes := by
  have found := Pass.found_of_scanned isScanned
  have labelled := labelled_of_scanned isScanned
  have shaped := shaped_of_parseModule (Pass.parsed_of_scanned isScanned)
  rcases recorded with rfl | ⟨d, isDefinition, rfl⟩
  · exact ⟨tree, _, found.records_sites labelled shaped (noLambda_of_scanned isScanned), fun _ inside _ => inside⟩
  · obtain ⟨p, t, reached, defines⟩ := found.defined d isDefinition
    exact ⟨d.tree, _, found.records_calls labelled shaped isDefinition, fun call inside isCall =>
      Tree.mem_nodes_trans reached.mem_nodes (defines.call_mem inside isCall)⟩

/-- A recorded call is a call of a macro in the file. -/
theorem call_of_recorded {sites : List CallSite} {site : CallSite}
    (recorded : c.Recorded sites) (member : site ∈ sites) :
    ∃ call ∈ tree.nodes, site.Of c.source.lines call ∧ ∃ callee, call.Calls callee site.name := by
  obtain ⟨t, counts, records, ofFile⟩ := records_of_recorded isScanned recorded
  obtain ⟨call, inside, -, -, calls, ofCall⟩ := records.sound site member
  exact ⟨call, ofFile call inside ofCall.isCall, ofCall, calls⟩

/-- The calls that stand in the statement of a macro are those recorded in the macro. -/
theorem in_statement_iff {sites : List CallSite} {site : CallSite} {call : Tree} {d : Definition}
    (recorded : c.Recorded sites) (member : site ∈ sites) (isNode : call ∈ tree.nodes) (label : site.label = call.mark.label)
    (isDefinition : d ∈ c.scan.definitions) : call ∈ d.statement.nodes ↔ sites = d.calls := by
  have found := Pass.found_of_scanned isScanned
  have labelled := labelled_of_scanned isScanned
  have noLambda := noLambda_of_scanned isScanned
  have own : ∀ d' ∈ c.scan.definitions, site ∈ d'.calls → call ∈ d'.statement.nodes := by
    intro d' isDefinition' isCall
    obtain ⟨call', inside, label'⟩ := found.call_in_statement noLambda isDefinition' isCall
    obtain rfl := labelled.eq_of_label (Tree.mem_nodes_trans (statement_of_scanned isScanned isDefinition').1 inside) isNode
      (label'.trans label)
    exact inside
  constructor
  · intro inside
    rcases recorded with rfl | ⟨d', isDefinition', rfl⟩
    · refine absurd ?_ (found.site_not_in_statement labelled noLambda isDefinition member)
      exact label ▸ Tree.label_mem_labels inside
    · rw [eq_of_node isScanned isDefinition isDefinition' inside (own d' isDefinition' member)]
  · rintro rfl
    exact own d isDefinition member

/-- A call is not replaced in front of those that stand in it. -/
theorem not_inside_of_precedes {sites sites' : List CallSite} {site site' : CallSite} {call call' : Tree}
    (recorded : c.Recorded sites) (recorded' : c.Recorded sites') (member : site ∈ sites) (member' : site' ∈ sites')
    (precedes : c.Precedes site site') (isNode : call ∈ tree.nodes) (isNode' : call' ∈ tree.nodes) (ofCall : site.Of c.source.lines call)
    (ofCall' : site'.Of c.source.lines call') : call' ∉ call.nodes := by
  intro inside
  have labelled := labelled_of_scanned isScanned
  by_cases same : sites = sites'
  · subst same
    obtain ⟨before, after, rfl, isEarlier⟩ := precedes _ recorded member member'
    obtain ⟨t, counts, records, ofFile⟩ := records_of_recorded isScanned recorded
    obtain ⟨outer, isOuter, -, -, -, ofOuter⟩ := records.sound site member
    obtain rfl := labelled.eq_of_label (ofFile outer isOuter ofOuter.isCall) isNode (ofOuter.label.symm.trans ofCall.label)
    have ordered := (List.pairwise_append.mp records.innerFirst).2.2 site isEarlier site' (.head _)
    exact ordered outer isOuter ofCall.label.symm (ofCall'.label ▸ Tree.label_mem_labels inside)
  · -- no macro has one call only in its statement
    have apart : ∀ d ∈ c.scan.definitions, call ∉ d.statement.nodes := by
      intro d isDefinition within
      have own := (in_statement_iff isScanned recorded member isNode ofCall.label isDefinition).mp within
      have own' := (in_statement_iff isScanned recorded' member' isNode' ofCall'.label isDefinition).mp
        (Tree.mem_nodes_trans within inside)
      exact same (own.trans own'.symm)
    have outer : sites = c.scan.sites := recorded.resolve_right fun ⟨d, isDefinition, isAll⟩ =>
      apart d isDefinition ((in_statement_iff isScanned recorded member isNode ofCall.label isDefinition).mpr isAll)
    obtain ⟨d, isDefinition, isAll⟩ := recorded'.resolve_left fun outer' => same (outer.trans outer'.symm)
    have within := (in_statement_iff isScanned recorded' member' isNode' ofCall'.label isDefinition).mpr isAll
    obtain ⟨isStatement, isRemovable⟩ := statement_of_scanned isScanned isDefinition
    rcases labelled.nested isNode isStatement inside within with below | around
    · -- and the statement of a macro stands in no call
      have other : d.statement ≠ call := by
        intro same
        exact apart d isDefinition (same ▸ Tree.mem_nodes_self _)
      exact Kind.isRemovable_ne_call isRemovable (Scan.MayEdit.isCall_of_inside isScanned isNode (.inl ofCall.isCall)
        (.inr ⟨d, isDefinition, rfl⟩) below other)
    · exact apart d isDefinition around

/-- A recorded call is one of the file or in a macro. -/
theorem Edit.IsFor.mayWrite {sites : List CallSite} {site : CallSite} {e : Edit} (isFor : e.IsFor site)
    (recorded : c.Recorded sites) (member : site ∈ sites) : c.scan.MayWrite c.source tree e := by
  obtain ⟨call, isNode, ofCall, -⟩ := call_of_recorded isScanned recorded member
  exact ⟨call, isNode, .inl ofCall.isCall, (isFor.replaces ofCall).covers⟩

/-- Edits that remove the statements of macros cover them, whatever calls are replaced. -/
theorem mayWrite_of_strip {expansions : List Expansion} (unlabelled : ∀ x ∈ expansions, x.result.Unlabelled) {e : Edit}
    (member : e ∈ ((Removal.Context.of c.scan.definitions c.source.lines).strip (Rewriting.apply expansions tree)).edits) :
    c.scan.MayWrite c.source tree e := by
  have parsed := Pass.parsed_of_scanned isScanned
  obtain ⟨d, isDefinition, inside, withPass, rfl⟩ :=
    (Pass.found_of_scanned isScanned).mem_strip parsed unlabelled member
  have removable := (statement_of_scanned isScanned isDefinition).2
  exact ⟨d.statement, inside, .inr ⟨d, isDefinition, rfl⟩, covers_edit parsed inside removable rfl withPass⟩

/-- The edits of a file whose calls were replaced are for calls and for statements of macros. -/
theorem mayWrite_of_replaces {r : Rewriting} (replaces : r.Replaces c.scan.sites) {e : Edit}
    (member : e ∈ r.edits ++
      ((Removal.Context.of c.scan.definitions c.source.lines).strip (Rewriting.apply r.expansions tree)).edits) :
    c.scan.MayWrite c.source tree e := by
  rcases List.mem_append.mp member with ofCall | ofStatement
  · obtain ⟨site, isSite, isFor⟩ := replaces.exists_site ofCall
    exact isFor.mayWrite isScanned (.inl rfl) isSite
  · refine mayWrite_of_strip isScanned (fun x isExpansion => ?_) ofStatement
    obtain ⟨e, -, expression, parsed, -⟩ := Sandbox.forall₂_exists replaces.written.2 isExpansion
    exact unlabelled_of_parseExpression parsed

variable (laminar : tree.Laminar c.source)
include laminar

/-- The edit of a call keeps to the arguments of calls behind it. -/
theorem Edit.IsFor.keepsTo {sites sites' : List CallSite} {site site' : CallSite} {e : Edit} (isFor : e.IsFor site)
    (recorded : c.Recorded sites) (recorded' : c.Recorded sites') (member : site ∈ sites) (member' : site' ∈ sites')
    (precedes : c.Precedes site site') : e.KeepsTo c.source site'.argsSpan := by
  obtain ⟨call, isNode, ofCall, -⟩ := call_of_recorded isScanned recorded member
  obtain ⟨call', isNode', ofCall', callee, calls⟩ := call_of_recorded isScanned recorded' member'
  exact keepsTo_of_replaced isScanned laminar isNode isNode' (isFor.replaces ofCall) ofCall'
    (not_inside_of_precedes isScanned recorded recorded' member member' precedes isNode isNode' ofCall ofCall') calls

/-- In a file whose calls and statements stand apart or inside one another, edits of replaced calls never clash. -/
theorem steady_of_laminar : c.Steady where
  known sites recorded site member := (Pass.found_of_scanned isScanned).known (recorded.site member)
  apart site done stands := by
    obtain ⟨before, after, recorded, replaces⟩ := stands
    have mayWrite : ∀ e ∈ done.edits, c.scan.MayWrite c.source tree e := by
      intro e member
      obtain ⟨site, isSite, isFor⟩ := replaces.exists_site member
      exact isFor.mayWrite isScanned recorded (List.mem_append_left _ isSite)
    exact fun e member e' member' => (mayWrite e member).nest isScanned laminar (mayWrite e' member')
  isNew site done stands := by
    obtain ⟨before, after, recorded, replaces⟩ := stands
    intro x isExpansion
    have isEarlier : x.site ∈ before := replaces.written.1 ▸ List.mem_map_of_mem isExpansion
    exact label_ne_of_precedes isScanned recorded recorded (List.mem_append_left _ isEarlier) (by simp)
      ((sorted_of_scanned isScanned).precedes recorded isEarlier)

end Files

/-! ## What a pass does -/

section Files

variable {path : Text} {tree : Tree} {σ : Type} {c : Pass.Context σ}
  (isScanned : Pass.scanned c.settings c.source path = .ok (tree, c.scan))
include isScanned

/-- Calls are come to and replaced in their order. -/
theorem inOrder_trace (s : PassState σ) : (c.trace s).Pairwise (Pass.Event.Before c) := by
  have sorted := sorted_of_scanned isScanned
  obtain ⟨-, replacing⟩ := Pass.replacing_traceSites sorted [] (Pass.getsInOrder_expandMacro sorted _ [] rfl) {}
    c.scan.sites s (show c.Recorded ([] ++ c.scan.sites) from .inl rfl)
    fun site member d isDefinition _ => sorted.outer d isDefinition site member
  exact replacing.inOrder

variable {s : PassState σ} (forwards : ∀ event ∈ c.trace s, event.Forwards c)
include forwards

/-- The edits of a pass are for calls and for statements of macros. -/
theorem mayWrite_of_edits (lines : c.lines = c.source.lines) {e : Edit} (member : e ∈ c.edits tree s) :
    c.scan.MayWrite c.source tree e := by
  rcases List.mem_append.mp member with written | emitted
  · obtain ⟨event, inTrace, isEdit⟩ := List.mem_filterMap.mp written
    cases event with
    | writes site edit =>
      cases isEdit
      obtain ⟨sites, recorded, isSite⟩ := (forwards _ inTrace).recorded rfl
      obtain ⟨_, _, _, -, replaced⟩ := forwards _ inTrace
      exact (Rewriting.isFor_of_expand replaced).mayWrite isScanned recorded isSite
    | _ => cases isEdit
  · split at emitted
    · rename_i ended
      have known : ∀ site ∈ c.scan.sites, ∃ d, c.scan.definition? site.name = some d :=
        fun site isSite => (Pass.found_of_scanned isScanned).known (.inl isSite)
      rw [lines] at emitted
      exact mayWrite_of_replaces isScanned (Pass.replaces_of_expandSites known .none ended) emitted
    · cases emitted

/-- A pass replaces no call twice. -/
theorem replaced_nodup : ((c.trace s).filterMap Pass.Event.replaced?).Nodup := by
  rw [List.Nodup, List.pairwise_filterMap]
  refine (inOrder_trace isScanned s).imp_of_mem fun {a b} inTrace inTrace' isBefore l isFirst l' isLast => ?_
  cases a <;> cases isFirst
  cases b <;> cases isLast
  obtain ⟨sites, recorded, isSite⟩ := (forwards _ inTrace).recorded rfl
  obtain ⟨sites', recorded', isSite'⟩ := (forwards _ inTrace').recorded rfl
  exact label_ne_of_precedes isScanned recorded recorded' isSite isSite' (isBefore _ _ rfl _ rfl)

/-- When a pass comes to a call, the edits that it recorded before keep to the arguments of the call. -/
theorem keepsTo_of_trace (laminar : tree.Laminar c.source) {before after : List Pass.Event} {chain : List String}
    {d : Definition} {site : CallSite} {done : Rewriting} {cache : Cache CacheKey Text}
    (here : c.trace s = before ++ .asks chain d site done cache :: after) {e : Edit}
    (member : e ∈ before.filterMap Pass.Event.edit? ++ done.edits) : e.KeepsTo c.source site.argsSpan := by
  obtain ⟨front, back, recorded, replaces⟩ := forwards (.asks chain d site done cache) (here ▸ by simp)
  rcases List.mem_append.mp member with earlier | own
  · obtain ⟨event, isBefore, isEdit⟩ := List.mem_filterMap.mp earlier
    cases event with
    | writes site' edit =>
      cases isEdit
      have inTrace : Pass.Event.writes site' e ∈ c.trace s := here ▸ List.mem_append_left _ isBefore
      obtain ⟨sites, recorded', isSite⟩ := (forwards _ inTrace).recorded rfl
      obtain ⟨_, _, _, -, replaced⟩ := forwards _ inTrace
      have inOrder := inOrder_trace isScanned s
      rw [here] at inOrder
      have precedes := (List.pairwise_append.mp inOrder).2.2 _ isBefore _ (.head _) site' e rfl site rfl
      exact (Rewriting.isFor_of_expand replaced).keepsTo isScanned laminar recorded' recorded isSite (by simp) precedes
    | _ => cases isEdit
  · obtain ⟨site', isFront, isFor⟩ := replaces.exists_site own
    exact isFor.keepsTo isScanned laminar recorded recorded (List.mem_append_left _ isFront) (by simp)
      ((sorted_of_scanned isScanned).precedes recorded isFront)

end Files

/-- A file whose calls were replaced is emitted, or fails for another reason than edits that overlap. -/
theorem finish_not_clashes {σ : Type} {c : Pass.Context σ} {path : Text} {tree : Tree} {r : Rewriting} {e : PassError}
    (nest : let edits := r.edits ++
        ((Removal.Context.of c.scan.definitions c.lines).strip (Rewriting.apply r.expansions tree)).edits
      ∀ e ∈ edits, ∀ e' ∈ edits, e.Nest c.source e') (failed : Pass.finish c path tree r = .error e) : ¬ e.Clashes := by
  unfold Pass.finish at failed
  dsimp only at failed
  split at failed
  · cases failed
  · rename_i refused
    cases failed
    rintro ⟨line⟩
    exact emit_ne_overlapping nest refused

/-- A pass does not fail because edits clash. -/
theorem expandMacros_not_clashes {settings : Settings} {source path : Text} {tree : Tree} {scan : Scan}
    (isScanned : Pass.scanned settings source path = .ok (tree, scan)) (laminar : tree.Laminar source) {σ : Type}
    (execute : Executor σ) (s : PassState σ) {e : PassError}
    (failed : ((expandMacros settings execute source path).outcome s).1 = .error e) : ¬ e.Clashes := by
  intro clashes
  let c : Pass.Context σ := ⟨settings, execute, source, source.lines, scan⟩
  have isFile : Pass.scanned c.settings c.source path = .ok (tree, c.scan) := isScanned
  have pass := Pass.expandMacros_expands settings execute source path s
  rw [isScanned] at pass
  obtain ⟨-, plain, -⟩ | ⟨-, replaced, all, result⟩ := pass
  · obtain ⟨sourceMap, emitted⟩ := Pass.emit_unchanged tree source (Pass.emitOptions settings path)
    rw [failed, Pass.unchanged, emitted] at plain
    cases plain
  · obtain ⟨unfailed, replaces⟩ := all.not_clashes (steady_of_laminar isFile laminar)
      (show c.Recorded ([] ++ scan.sites) from .inl rfl) .none
    cases replaced with
    | error e' =>
      cases result.symm.trans failed
      exact unfailed e rfl clashes
    | ok r =>
      have mayWrite {e : Edit} := mayWrite_of_replaces (e := e) isFile (replaces r rfl)
      exact finish_not_clashes (fun e member e' member' => (mayWrite member).nest isScanned laminar (mayWrite member'))
        (result.symm.trans failed) clashes

/-- In a file whose calls and statements stand apart or one inside the other, the edits of a pass are disjoint or lie one
inside the other.  Whenever it comes to a call, those that it recorded before lie inside the arguments of the call or
are disjoint from them.  It replaces no call twice, so it never fails because edits overlap or because a call was
replaced before. -/
theorem edits_never_clash {settings : Settings} {source path : Text} {tree : Tree} {scan : Scan}
    (isScanned : Pass.scanned settings source path = .ok (tree, scan)) (laminar : tree.Laminar source) {σ : Type}
    (execute : Executor σ) (s : PassState σ) :
    let c : Pass.Context σ := ⟨settings, execute, source, source.lines, scan⟩
    let start := Pass.scannedState settings source path s
    (∀ e ∈ c.edits tree start, ∀ e' ∈ c.edits tree start, e.Nest source e') ∧
    (∀ before after chain d site done cache, c.trace start = before ++ .asks chain d site done cache :: after →
      ∀ e ∈ before.filterMap Pass.Event.edit? ++ done.edits, e.KeepsTo source site.argsSpan) ∧
    ((c.trace start).filterMap Pass.Event.replaced?).Nodup ∧
    ∀ e, ((expandMacros settings execute source path).outcome s).1 = .error e → ¬ e.Clashes := by
  intro c start
  have isFile : Pass.scanned c.settings c.source path = .ok (tree, c.scan) := isScanned
  have forwards := Pass.forwards_trace isScanned execute start
  refine ⟨fun e member e' member' => ?_, fun before after chain d site done cache here e member => ?_,
    replaced_nodup isFile forwards, fun e failed => expandMacros_not_clashes isScanned laminar execute s failed⟩
  · exact (mayWrite_of_edits isFile forwards rfl member).nest isScanned laminar
      (mayWrite_of_edits isFile forwards rfl member')
  · exact keepsTo_of_trace isFile forwards laminar here member

/-- A macro with a decorator, and one that calls it and shares its line with a call that holds another. -/
def sharedLine : Text :=
  chars "@d\ndef a(n): 'use macro'; return n\nb = lambda n: ('use macro', a(a(n))); x = b(a(1))\n"

theorem sharedLine_edits :
    let execute : Executor Unit := fun _ world => ⟨.ok ['7'], [], world⟩
    let start := Pass.scannedState {} sharedLine (chars "m.py") { world := () }
    ∃ tree scan, Pass.scanned {} sharedLine (chars "m.py") = .ok (tree, scan) ∧ tree.Laminar sharedLine ∧
      let c : Pass.Context Unit := ⟨{}, execute, sharedLine, sharedLine.lines, scan⟩
      (c.edits tree start).length = 8 ∧ (∀ e ∈ c.edits tree start, ∀ e' ∈ c.edits tree start, e.Nest sharedLine e') ∧
      ((c.trace start).filterMap Pass.Event.replaced?).length = 4 ∧
      ((c.trace start).filterMap Pass.Event.replaced?).Nodup := by
  intro execute start
  obtain ⟨⟨tree, scan⟩, isScanned, laminar, edits, calls⟩ : ∃ file, Pass.scanned {} sharedLine (chars "m.py") = .ok file ∧
      file.1.Laminar sharedLine ∧
      let c : Pass.Context Unit := ⟨{}, execute, sharedLine, sharedLine.lines, file.2⟩
      (c.edits file.1 start).length = 8 ∧ ((c.trace start).filterMap Pass.Event.replaced?).length = 4 := by
    unfold start
    rw [show sharedLine = _ from chars_ofList _]
    decide +kernel
  obtain ⟨nest, -, once, -⟩ := edits_never_clash isScanned laminar execute { world := () }
  exact ⟨tree, scan, isScanned, laminar, edits, nest, calls, once⟩

end MacroExpand
