import MacroExpand.Macro.Pass
import MacroExpand.Proofs.Breaks
import MacroExpand.Proofs.Passes
import MacroExpand.Proofs.Outermost

/-!
# Splicing

Edits that lie in a text are put in order, or refused because two that lie in no other overlap
(`Edit.outermost_cases`).  The text is then written with their spans replaced and the rest as it is
(`PlacedEdit.write_replaced`).  If no edit that is kept reaches over a cut, the text is written as the stretch in front
of the cut and the stretch behind it (`PlacedEdit.write_cut`).
-/

set_option autoImplicit false

namespace MacroExpand

/-- A text that begins at an offset, with the spans of edits replaced and the rest as it is. -/
inductive Text.Replaced : Int → Text → List PlacedEdit → Text → Prop where
  | rest (cursor : Int) (text : Text) : Replaced cursor text [] text
  | edit {cursor : Int} {front old text out : Text} {e : PlacedEdit} {edits : List PlacedEdit}
      (start : e.start = cursor + front.length) (stop : e.stop = e.start + old.length)
      (behind : Replaced e.stop text edits out) :
      Replaced cursor (front ++ old ++ text) (e :: edits) (front ++ e.edit.replacement ++ out)

/-! ## Edits that lie in a text -/

/-- Edits that follow each other between two offsets. -/
structure PlacedEdit.Between (cursor cut : Int) (edits : List PlacedEdit) : Prop where
  starts : ∀ e ∈ edits, cursor ≤ e.start
  ends : ∀ e ∈ edits, e.start ≤ e.stop ∧ e.stop ≤ cut
  ordered : edits.Pairwise fun a b => a.stop ≤ b.start

theorem PlacedEdit.Between.head {cursor cut : Int} {e : PlacedEdit} {rest : List PlacedEdit}
    (between : Between cursor cut (e :: rest)) :
    cursor ≤ e.start ∧ e.start ≤ e.stop ∧ e.stop ≤ cut ∧ Between e.stop cut rest := by
  obtain ⟨forward, ends⟩ := between.ends e (.head _)
  obtain ⟨first, ordered⟩ := List.pairwise_cons.mp between.ordered
  exact ⟨between.starts e (.head _), forward, ends, first, fun d member => between.ends d (.tail _ member), ordered⟩

namespace Edit

open PlacedEdit (IsOutermost Overlaps Contained outer Between)

/-- An edit has its place in a text: it does not end in front of where it starts. -/
structure StandsAt (source : Text) (e : Edit) (p : PlacedEdit) : Prop where
  placed : e.place source.lineStarts = .ok p
  inside : 0 ≤ p.start
  forward : p.start ≤ p.stop
  ends : p.stop ≤ source.length

variable {source : Text} {edits : List Edit} {all kept : List PlacedEdit}

theorem StandsAt.edit_eq {e : Edit} {p : PlacedEdit} (stands : StandsAt source e p) : p.edit = e := by
  have placed := stands.placed
  unfold place at placed
  split at placed
  · cases placed
    rfl
  · cases placed

theorem StandsAt.of_mem (stand : List.Forall₂ (StandsAt source) edits all) {p : PlacedEdit} (member : p ∈ all) :
    ∃ e, StandsAt source e p := by
  obtain ⟨e, -, stands⟩ := Sandbox.forall₂_exists stand.flip member
  exact ⟨e, stands⟩

theorem StandsAt.fits (stand : List.Forall₂ (StandsAt source) edits all) {p : PlacedEdit} (member : p ∈ all) :
    0 ≤ p.start ∧ p.start ≤ p.stop ∧ p.stop ≤ source.length := by
  obtain ⟨e, stands⟩ := StandsAt.of_mem stand member
  exact ⟨stands.inside, stands.forward, stands.ends⟩

theorem placeAll_eq (stand : List.Forall₂ (StandsAt source) edits all) :
    edits.mapM (place source.lineStarts) = .ok all := by
  induction stand with
  | nil => rfl
  | cons first _ ih =>
    rw [List.mapM_cons, first.placed, ih]
    rfl

theorem outermost_eq (stand : List.Forall₂ (StandsAt source) edits all) :
    outermost source.lineStarts edits = PlacedEdit.sweep none (outer all) := by
  unfold outermost outer
  rw [placeAll_eq stand, PlacedEdit.sweep_thin]
  rfl

/-- The edits that lie in no other are kept in order, or two of them overlap. -/
theorem outermost_cases (stand : List.Forall₂ (StandsAt source) edits all) :
    (outermost source.lineStarts edits = .ok (outer all) ∧ (outer all).Pairwise fun a b => a.stop ≤ b.start) ∨
      ∃ a b, IsOutermost all a ∧ IsOutermost all b ∧ a.Overlaps b ∧
        outermost source.lineStarts edits = .error (.overlapping b.edit.start.line) := by
  rw [outermost_eq stand]
  rcases @PlacedEdit.sweep_ahead none _ (PlacedEdit.outer_ahead all) (by simp) with
    ⟨kept, apart, -⟩ | ⟨a, b, inA, inB, overlaps, failed⟩
  · exact .inl ⟨kept, apart⟩
  · exact .inr ⟨a, b, PlacedEdit.mem_outer.mp (by simpa using inA), PlacedEdit.mem_outer.mp inB, overlaps, failed⟩

theorem not_overlaps (ordered : kept.Pairwise fun a b => a.start < b.start ∧ a.stop ≤ b.start) {a b : PlacedEdit}
    (inA : a ∈ kept) (inB : b ∈ kept) : ¬ a.Overlaps b := by
  obtain ⟨i, atA, rfl⟩ := List.mem_iff_getElem.mp inA
  obtain ⟨j, atB, rfl⟩ := List.mem_iff_getElem.mp inB
  have apart := List.pairwise_iff_getElem.mp ordered
  unfold Overlaps
  rcases lt_trichotomy i j with front | rfl | back
  · have apart := apart i j atA atB front
    omega
  · omega
  · have apart := apart j i atB atA back
    omega

/-- What is kept of the edits are those that lie in no other, and none of them begins in the one in front of it. -/
theorem outermost_ok_iff (stand : List.Forall₂ (StandsAt source) edits all) :
    outermost source.lineStarts edits = .ok kept ↔
      (∀ e, e ∈ kept ↔ IsOutermost all e) ∧ kept.Pairwise fun a b => a.start < b.start ∧ a.stop ≤ b.start := by
  constructor
  · intro isKept
    rcases outermost_cases stand with ⟨same, apart⟩ | ⟨_, _, _, _, _, failed⟩
    · obtain rfl := Except.ok.inj (same.symm.trans isKept)
      refine ⟨fun e => PlacedEdit.mem_outer, (PlacedEdit.outer_ahead all).imp₂ ?_ apart⟩
      exact fun _ _ ahead clear => ⟨ahead.1, clear⟩
    · cases failed.symm.trans isKept
  · rintro ⟨isOuter, ordered⟩
    have ahead : kept.Pairwise PlacedEdit.Ahead := by
      refine ordered.imp_of_mem fun {a b} inA inB apart => ⟨apart.1, ?_⟩
      obtain ⟨around, -⟩ := PlacedEdit.isOutermost_iff.mp ((isOuter b).mp inB)
      by_contra inside
      have same := PlacedEdit.stretch_eq.mp (around a ((isOuter a).mp inA).mem ⟨by omega, by omega⟩)
      omega
    obtain rfl : kept = outer all :=
      ahead.eq_of_mem_iff (PlacedEdit.outer_ahead all) fun e => by rw [isOuter, PlacedEdit.mem_outer]
    rcases outermost_cases stand with ⟨same, -⟩ | ⟨a, b, isOuterA, isOuterB, overlaps, -⟩
    · exact same
    · exact absurd overlaps (not_overlaps ordered ((isOuter a).mpr isOuterA) ((isOuter b).mpr isOuterB))

/-- Edits are refused if and only if two that lie in no other overlap, and for such a pair. -/
theorem outermost_error_iff (stand : List.Forall₂ (StandsAt source) edits all) :
    (∃ error, outermost source.lineStarts edits = .error error) ↔
      ∃ a b, IsOutermost all a ∧ IsOutermost all b ∧ a.Overlaps b := by
  constructor
  · rintro ⟨error, failed⟩
    rcases outermost_cases stand with ⟨same, -⟩ | ⟨a, b, isOuterA, isOuterB, overlaps, -⟩
    · cases same.symm.trans failed
    · exact ⟨a, b, isOuterA, isOuterB, overlaps⟩
  · rintro ⟨a, b, isOuterA, isOuterB, overlaps⟩
    cases isKept : outermost source.lineStarts edits with
    | error error => exact ⟨error, rfl⟩
    | ok kept =>
      obtain ⟨isOuter, ordered⟩ := (outermost_ok_iff stand).mp isKept
      exact absurd overlaps (not_overlaps ordered ((isOuter a).mpr isOuterA) ((isOuter b).mpr isOuterB))

theorem between_kept (stand : List.Forall₂ (StandsAt source) edits all)
    (isKept : outermost source.lineStarts edits = .ok kept) : Between 0 source.length kept := by
  obtain ⟨isOuter, ordered⟩ := (outermost_ok_iff stand).mp isKept
  have fits : ∀ e ∈ kept, 0 ≤ e.start ∧ e.start ≤ e.stop ∧ e.stop ≤ source.length :=
    fun e member => StandsAt.fits stand ((isOuter e).mp member).mem
  exact ⟨fun e member => (fits e member).1, fun e member => (fits e member).2, ordered.imp And.right⟩

theorem outermost_kept (stand : List.Forall₂ (StandsAt source) edits all)
    (isKept : outermost source.lineStarts edits = .ok kept) :
    outermost source.lineStarts (kept.map PlacedEdit.edit) = .ok kept := by
  obtain ⟨isOuter, ordered⟩ := (outermost_ok_iff stand).mp isKept
  have stand' : List.Forall₂ (StandsAt source) (kept.map PlacedEdit.edit) kept := by
    refine List.forall₂_map_left_iff.mpr (List.forall₂_same.mpr fun p member => ?_)
    obtain ⟨e, stands⟩ := StandsAt.of_mem stand ((isOuter p).mp member).mem
    exact stands.edit_eq.symm ▸ stands
  have distinct : kept.Pairwise fun a b => a.stretch ≠ b.stretch :=
    ordered.imp fun apart same => absurd (PlacedEdit.stretch_eq.mp same).1 apart.1.ne
  refine (outermost_ok_iff stand').mpr ⟨fun e => ⟨fun member => ?_, IsOutermost.mem⟩, ordered⟩
  obtain ⟨around, -⟩ := PlacedEdit.isOutermost_iff.mp ((isOuter e).mp member)
  exact PlacedEdit.isOutermost_iff.mpr ⟨fun k inKept => around k ((isOuter k).mp inKept).mem,
    (PlacedEdit.find?_stretch distinct).mpr member⟩

end Edit

/-! ## The text that is written -/

namespace Text

theorem slice_append {text : Text} {a b c : Int} (inside : 0 ≤ a) (first : a ≤ b) (second : b ≤ c ∨ text.length ≤ c) :
    text.slice a b ++ text.slice b c = text.slice a c := by
  obtain ⟨a, rfl⟩ := Int.eq_ofNat_of_zero_le inside
  obtain ⟨b, rfl⟩ := Int.eq_ofNat_of_zero_le (inside.trans first)
  obtain ⟨c, rfl⟩ := Int.eq_ofNat_of_zero_le (show 0 ≤ c by omega)
  simp only [slice_nat]
  rcases Nat.lt_or_ge c b with reversed | ordered
  · rw [Nat.sub_eq_zero_of_le reversed.le, List.take_zero, List.append_nil, List.take_of_length_le,
      List.take_of_length_le]
    all_goals
      rw [List.length_drop]
      omega
  · rw [show c - a = (b - a) + (c - b) by omega, List.take_add, List.drop_drop, show a + (b - a) = b by omega]

theorem length_slice {text : Text} {a b : Int} (inside : 0 ≤ a) (forward : a ≤ b) (ends : b ≤ text.length) :
    ((text.slice a b).length : Int) = b - a := by
  obtain ⟨a, rfl⟩ := Int.eq_ofNat_of_zero_le inside
  obtain ⟨b, rfl⟩ := Int.eq_ofNat_of_zero_le (inside.trans forward)
  rw [slice_nat, List.length_take, List.length_drop]
  omega

theorem slice_length (text : Text) : text.slice 0 text.length = text := by
  have whole := slice_nat text 0 text.length
  rw [List.drop_zero, Nat.sub_zero, List.take_length] at whole
  exact whole

end Text

namespace PlacedEdit

variable {source : Text} {kept : List PlacedEdit} {cursor cut : Int}

theorem write_replaced (inside : 0 ≤ cursor) (between : Between cursor source.length kept) :
    Text.Replaced cursor (source.slice cursor source.length) kept (write source cursor source.length kept) := by
  induction kept generalizing cursor with
  | nil => exact .rest ..
  | cons e rest ih =>
    obtain ⟨here, forward, ends, behind⟩ := between.head
    have later := ih (by omega) behind
    have whole : source.slice cursor source.length =
        source.slice cursor e.start ++ source.slice e.start e.stop ++ source.slice e.stop source.length := by
      rw [Text.slice_append inside here (.inl forward), Text.slice_append inside (here.trans forward) (.inl ends)]
    rw [whole, write]
    refine .edit ?_ ?_ later
    · rw [Text.length_slice inside here (by omega)]
      omega
    · rw [Text.length_slice (by omega) forward ends]
      omega

end PlacedEdit

/-! ## The text that edits give -/

namespace Text

open Edit (StandsAt)
open PlacedEdit (IsOutermost Overlaps Contained Between)

variable {source : Text} {edits : List Edit} {all kept : List PlacedEdit}

theorem splice_congr {edits' : List Edit}
    (same : Edit.outermost source.lineStarts edits = Edit.outermost source.lineStarts edits')
    (span : Option (Anchor × Anchor)) : source.splice edits span = source.splice edits' span := by
  unfold splice
  simp only [same]

theorem splice_of_error {error : EditError} (failed : Edit.outermost source.lineStarts edits = .error error) :
    source.splice edits = .error error := by
  unfold splice
  simp only [failed]
  rfl

theorem splice_ok (isKept : Edit.outermost source.lineStarts edits = .ok kept)
    (between : Between 0 source.length kept) :
    source.splice edits = .ok (PlacedEdit.write source 0 source.length kept) := by
  have every : (kept.filter fun e => (0 : Int) ≤ e.start && e.stop ≤ (source.length : Int)) = kept :=
    List.filter_eq_self.mpr fun e member => by simpa using ⟨between.starts e member, (between.ends e member).2⟩
  unfold splice
  simp only [isKept]
  exact congrArg (fun kept => Except.ok (PlacedEdit.write source 0 source.length kept)) every

/-- A stretch between two places is written with the edits that are kept and lie in it. -/
theorem splice_between (isKept : Edit.outermost source.lineStarts edits = .ok kept) {a b : Anchor} {lo hi : Int}
    (isStart : offsetIn source.lineStarts a = some lo) (isStop : offsetIn source.lineStarts b = some hi)
    (inside : PlacedEdit → Bool) (same : ∀ e ∈ kept, inside e = (decide (lo ≤ e.start) && decide (e.stop ≤ hi))) :
    source.splice edits (some (a, b)) = .ok (PlacedEdit.write source lo hi (kept.filter inside)) := by
  unfold splice
  simp only [isKept, isStart, isStop]
  rw [List.filter_congr same]
  rfl

theorem outermost_congr {edits' : List Edit} {all' : List PlacedEdit} (stand : List.Forall₂ (StandsAt source) edits all)
    (stand' : List.Forall₂ (StandsAt source) edits' all') (same : ∀ e, IsOutermost all e ↔ IsOutermost all' e) :
    Edit.outermost source.lineStarts edits = Edit.outermost source.lineStarts edits' := by
  rw [Edit.outermost_eq stand, Edit.outermost_eq stand', PlacedEdit.outer_congr same]

theorem outermost_eraseIdx (stand : List.Forall₂ (StandsAt source) edits all) {i : Nat} {c : PlacedEdit}
    (isEdit : all[i]? = some c) (contained : Contained (all.take i) c (all.drop (i + 1))) :
    Edit.outermost source.lineStarts (edits.eraseIdx i) = Edit.outermost source.lineStarts edits := by
  obtain ⟨inside, rfl⟩ := List.getElem?_eq_some_iff.mp isEdit
  have others : List.Forall₂ (StandsAt source) (edits.eraseIdx i) (all.take i ++ all.drop (i + 1)) := by
    rw [List.eraseIdx_eq_take_drop_succ]
    exact List.rel_append (List.forall₂_take i stand) (List.forall₂_drop (i + 1) stand)
  have whole : all = all.take i ++ all[i] :: all.drop (i + 1) := by
    rw [← List.drop_eq_getElem_cons, List.take_append_drop]
  refine outermost_congr others stand fun e => ?_
  conv_rhs => rw [whole]
  exact PlacedEdit.isOutermost_drop contained

/-- Edits with spans of their own can come in any order. -/
theorem outermost_perm (stand : List.Forall₂ (StandsAt source) edits all) {edits' : List Edit} (same : edits.Perm edits')
    (distinct : all.Pairwise fun a b => a.stretch ≠ b.stretch) :
    Edit.outermost source.lineStarts edits' = Edit.outermost source.lineStarts edits := by
  obtain ⟨all', stand', sameSpans⟩ := List.perm_comp_forall₂ same.symm stand
  exact outermost_congr stand' stand fun e => (PlacedEdit.isOutermost_perm sameSpans.symm distinct).symm

/-- Splicing replaces those spans of edits that lie in no other, or two of them overlap and nothing is written.  So an
edit that lies in another one changes nothing, and neither does the order of edits with spans of their own. -/
theorem splice_replaces_outermost (stand : List.Forall₂ (StandsAt source) edits all) :
    (∀ kept, Edit.outermost source.lineStarts edits = .ok kept ↔
      (∀ e, e ∈ kept ↔ IsOutermost all e) ∧ kept.Pairwise fun a b => a.start < b.start ∧ a.stop ≤ b.start) ∧
    ((∃ error, Edit.outermost source.lineStarts edits = .error error) ↔
      ∃ a b, IsOutermost all a ∧ IsOutermost all b ∧ a.Overlaps b) ∧
    (∀ error, Edit.outermost source.lineStarts edits = .error error → source.splice edits = .error error ∧
      ∃ a b, IsOutermost all a ∧ IsOutermost all b ∧ a.Overlaps b ∧ error = .overlapping b.edit.start.line) ∧
    (∀ kept, Edit.outermost source.lineStarts edits = .ok kept →
      ∃ out, source.splice edits = .ok out ∧ Replaced 0 source kept out) ∧
    (∀ i c, all[i]? = some c → Contained (all.take i) c (all.drop (i + 1)) →
      Edit.outermost source.lineStarts (edits.eraseIdx i) = Edit.outermost source.lineStarts edits ∧
        ∀ span, source.splice (edits.eraseIdx i) span = source.splice edits span) ∧
    ∀ edits', edits.Perm edits' → all.Pairwise (fun a b => a.stretch ≠ b.stretch) →
      Edit.outermost source.lineStarts edits' = Edit.outermost source.lineStarts edits ∧
        ∀ span, source.splice edits' span = source.splice edits span := by
  refine ⟨fun kept => Edit.outermost_ok_iff stand, Edit.outermost_error_iff stand, ?_, ?_, ?_, ?_⟩
  · intro error failed
    refine ⟨splice_of_error failed, ?_⟩
    rcases Edit.outermost_cases stand with ⟨same, -⟩ | ⟨a, b, isOuterA, isOuterB, overlaps, failed'⟩
    · cases same.symm.trans failed
    · exact ⟨a, b, isOuterA, isOuterB, overlaps, Except.error.inj (failed.symm.trans failed')⟩
  · intro kept isKept
    have between := Edit.between_kept stand isKept
    have written := PlacedEdit.write_replaced le_rfl between
    rw [slice_length] at written
    exact ⟨_, splice_ok isKept between, written⟩
  · intro i c isEdit contained
    have same := outermost_eraseIdx stand isEdit contained
    exact ⟨same, splice_congr same⟩
  · intro edits' same distinct
    have same := outermost_perm stand same distinct
    exact ⟨same, splice_congr same⟩

/-- A call in the arguments of a call. -/
def callInCall : Text := chars "f(g(1), 2)\n"

/-- The result of the outer call in its place. -/
def outerEdit : Edit := ⟨⟨1, 0⟩, ⟨1, 10⟩, chars "9", some "f"⟩

/-- The result of the inner call in its place. -/
def innerEdit : Edit := ⟨⟨1, 2⟩, ⟨1, 6⟩, chars "7", some "g"⟩

theorem stand_callInCall :
    List.Forall₂ (StandsAt callInCall) [outerEdit, innerEdit] [⟨outerEdit, 0, 10⟩, ⟨innerEdit, 2, 6⟩] :=
  .cons ⟨rfl, by decide, by decide, by decide⟩ (.cons ⟨rfl, by decide, by decide, by decide⟩ .nil)

theorem splice_callInCall : callInCall.splice [outerEdit] = callInCall.splice [outerEdit, innerEdit] := by
  obtain ⟨-, -, -, -, drops, -⟩ := splice_replaces_outermost stand_callInCall
  exact (drops 1 _ rfl (.inl ⟨_, .head _, by decide⟩)).2 none

end Text

/-! ## Stretches of a text -/

namespace PlacedEdit

variable {source : Text} {kept front back : List PlacedEdit} {cursor cut : Int}

def Cuts (kept : List PlacedEdit) (cut : Int) : Prop := ∀ e ∈ kept, e.stop ≤ cut ∨ cut ≤ e.start

theorem write_append (inside : 0 ≤ cursor) (reaches : cursor ≤ cut) (between : Between cursor cut front)
    (behind : ∀ e ∈ back, cut ≤ e.start) :
    write source cursor source.length (front ++ back) =
      write source cursor cut front ++ write source cut source.length back := by
  induction front generalizing cursor with
  | nil =>
    cases back with
    | nil => exact (Text.slice_append inside reaches (.inr le_rfl)).symm
    | cons e rest =>
      rw [List.nil_append, write, write, write, ← Text.slice_append inside reaches (.inl (behind e (.head _)))]
      simp only [List.append_assoc]
  | cons e rest ih =>
    obtain ⟨start, forward, stop, later⟩ := between.head
    rw [List.cons_append, write, ih (by omega) stop later, write]
    simp only [List.append_assoc]

/-- Edits that follow each other are those that end in front of a place, and behind them the others. -/
theorem filter_append (forward : ∀ e ∈ kept, e.start ≤ e.stop) (ordered : kept.Pairwise fun a b => a.stop ≤ b.start) :
    (kept.filter fun e => e.stop ≤ cut) ++ (kept.filter fun e => cut < e.stop) = kept := by
  induction kept with
  | nil => rfl
  | cons e rest ih =>
    obtain ⟨first, ordered⟩ := List.pairwise_cons.mp ordered
    by_cases inFront : e.stop ≤ cut
    · rw [List.filter_cons_of_pos (by simpa using inFront), List.filter_cons_of_neg (by simpa using inFront),
        List.cons_append, ih (fun e member => forward e (.tail _ member)) ordered]
    · have later : ∀ d ∈ e :: rest, cut < d.stop := by
        intro d member
        rcases List.mem_cons.mp member with rfl | later
        · omega
        · have forward := forward d (.tail _ later)
          have later := first d later
          omega
      rw [List.filter_eq_nil_iff.mpr, List.filter_eq_self.mpr, List.nil_append]
      · simpa using later
      · simpa using later

theorem write_cut (inside : 0 ≤ cursor) (reaches : cursor ≤ cut) (starts : ∀ e ∈ kept, cursor ≤ e.start)
    (some : ∀ e ∈ kept, e.start < e.stop) (ordered : kept.Pairwise fun a b => a.stop ≤ b.start) (cuts : Cuts kept cut) :
    write source cursor source.length kept = write source cursor cut (kept.filter fun e => e.stop ≤ cut) ++
      write source cut source.length (kept.filter fun e => cut ≤ e.start) := by
  have behind : (kept.filter fun e => cut < e.stop) = kept.filter fun e => cut ≤ e.start := by
    refine List.filter_congr fun e member => ?_
    have some := some e member
    have cuts := cuts e member
    rw [Bool.eq_iff_iff]
    simp
    omega
  conv_lhs => rw [← @filter_append kept cut (fun e member => (some e member).le) ordered, behind]
  refine write_append inside reaches ⟨fun e member => starts e (List.mem_of_mem_filter member), fun e member => ?_,
    ordered.sublist List.filter_sublist⟩ fun e member => by simpa using (List.mem_filter.mp member).2
  obtain ⟨member, inFront⟩ := List.mem_filter.mp member
  exact ⟨(some e member).le, by simpa using inFront⟩

end PlacedEdit

namespace Text

open Edit (StandsAt)
open PlacedEdit (Cuts)

variable {source : Text} {edits : List Edit} {all kept : List PlacedEdit}

/-- A text whose edits reach over neither end of a stretch is the stretch between what stands in front of it and what
stands behind it, each spliced alone.  So a macro gets the text that its arguments have in the spliced text. -/
theorem splice_slices (stand : List.Forall₂ (StandsAt source) edits all) (nonempty : ∀ p ∈ all, p.start < p.stop)
    (isKept : Edit.outermost source.lineStarts edits = .ok kept) {first a b last : Anchor} {lo hi : Int}
    (isFirst : offsetIn source.lineStarts first = some 0) (isLo : offsetIn source.lineStarts a = some lo)
    (isHi : offsetIn source.lineStarts b = some hi)
    (isLast : offsetIn source.lineStarts last = some (source.length : Int)) (inside : 0 ≤ lo) (forward : lo ≤ hi)
    (apart : ∀ e ∈ kept, e.stop ≤ lo ∨ e.Within lo hi ∨ hi ≤ e.start) :
    ∃ front middle back, source.splice edits (some (first, a)) = .ok front ∧
      source.splice edits (some (a, b)) = .ok middle ∧
      source.splice edits (some (b, last)) = .ok back ∧
      source.splice edits = .ok (front ++ middle ++ back) ∧
      ∀ {σ : Type} (c : Pass.Context σ) (r : Rewriting) (site : CallSite) (s : PassState σ), c.source = source →
        r.edits = edits → (site.argsSpan.start : Anchor) = a → (site.argsSpan.stop : Anchor) = b →
          (Pass.argumentsOf c r site).outcome s = (.ok middle, s) := by
  have between := Edit.between_kept stand isKept
  have nonempty : ∀ e ∈ kept, e.start < e.stop := fun e member =>
    nonempty e (((Edit.outermost_ok_iff stand).mp isKept).1 e |>.mp member).mem
  have cutsLo : Cuts kept lo := fun e member => (apart e member).imp_right fun rest => by
    unfold PlacedEdit.Within at rest
    omega
  -- The edits in front of the stretch are split off, then those behind it.
  have atLo := @PlacedEdit.write_cut source kept 0 lo le_rfl inside between.starts nonempty between.ordered cutsLo
  generalize isRest : (kept.filter fun e => lo ≤ e.start) = rest at atLo
  have within : ∀ e ∈ rest, e ∈ kept ∧ lo ≤ e.start := by
    intro e member
    rw [← isRest] at member
    simpa using List.mem_filter.mp member
  have cutsHi : Cuts rest hi := fun e member => by
    obtain ⟨member, start⟩ := within e member
    have nonempty := nonempty e member
    have apart := apart e member
    unfold PlacedEdit.Within at apart
    omega
  have atHi := @PlacedEdit.write_cut source rest lo hi inside forward (fun e member => (within e member).2)
    (fun e member => nonempty e (within e member).1) (isRest ▸ between.ordered.sublist List.filter_sublist) cutsHi
  rw [atHi, ← isRest, List.filter_filter, List.filter_filter] at atLo
  have isFront := splice_between isKept isFirst isLo (fun e => e.stop ≤ lo) fun e member => by
    simp [between.starts e member]
  have isMiddle := splice_between isKept isLo isHi (fun e => decide (e.stop ≤ hi) && decide (lo ≤ e.start))
    fun e member => Bool.and_comm ..
  have isBack := splice_between isKept isHi isLast (fun e => decide (hi ≤ e.start) && decide (lo ≤ e.start))
    fun e member => by
      have ends := (between.ends e member).2
      rw [Bool.eq_iff_iff]
      simp
      omega
  refine ⟨_, _, _, isFront, isMiddle, isBack, ?_, ?_⟩
  · rw [splice_ok isKept between, atLo, List.append_assoc]
  · rintro σ c r site s rfl rfl rfl rfl
    unfold Pass.argumentsOf
    rw [isMiddle]
    rfl

theorem slices_callInCall : ∃ front middle back,
    callInCall.splice [innerEdit] (some (⟨1, 1⟩, ⟨1, 10⟩)) = .ok middle ∧
      callInCall.splice [innerEdit] = .ok (front ++ middle ++ back) := by
  have stand : List.Forall₂ (StandsAt callInCall) [innerEdit] [⟨innerEdit, 2, 6⟩] := (List.forall₂_cons.mp stand_callInCall).2
  have isKept : Edit.outermost callInCall.lineStarts [innerEdit] = .ok [⟨innerEdit, 2, 6⟩] := by
    rw [Edit.outermost_eq_inOrder]
    rfl
  obtain ⟨front, middle, back, -, isMiddle, -, whole, -⟩ := @splice_slices callInCall [innerEdit] _ _ stand (by decide)
    isKept ⟨1, 0⟩ ⟨1, 1⟩ ⟨1, 10⟩ ⟨2, 0⟩ 1 10 rfl rfl rfl rfl (by decide) (by decide) (by decide)
  exact ⟨front, middle, back, isMiddle, whole⟩

end Text

end MacroExpand
