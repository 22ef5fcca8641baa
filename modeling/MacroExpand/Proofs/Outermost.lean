import MacroExpand.Proofs.Nesting

/-!
# Edits that lie in no other

Sorting puts an edit behind every edit that it lies in, but for those of the same span, which keep their order.  So one
look at the edit kept last is enough to drop the edits that lie in another one (`PlacedEdit.thin`), and what is left is
told by the set of the edits that lie in no other (`Edit.outermost_eq`).  Whether those overlap, and where, does not
depend on the others.
-/

set_option autoImplicit false

namespace MacroExpand

namespace PlacedEdit

/-- An edit lies in a stretch. -/
def Within (e : PlacedEdit) (lo hi : Int) : Prop := lo ≤ e.start ∧ e.stop ≤ hi

instance (e : PlacedEdit) (lo hi : Int) : Decidable (e.Within lo hi) :=
  inferInstanceAs (Decidable (lo ≤ e.start ∧ e.stop ≤ hi))

/-- An edit of a list lies in another one.  Of edits with the same span, all but the first lie in another. -/
def Contained (before : List PlacedEdit) (e : PlacedEdit) (behind : List PlacedEdit) : Prop :=
  (∃ k ∈ before, e.Within k.start k.stop) ∨ ∃ k ∈ behind, e.Within k.start k.stop ∧ k.stretch ≠ e.stretch

/-- An edit stands in a list and lies in no other one of it. -/
def IsOutermost (all : List PlacedEdit) (e : PlacedEdit) : Prop :=
  ∃ before behind, all = before ++ e :: behind ∧ ¬ Contained before e behind

/-- The second edit begins inside the first and ends behind it. -/
def Overlaps (a b : PlacedEdit) : Prop := a.start < b.start ∧ b.start < a.stop ∧ a.stop < b.stop

theorem Within.trans {e k : PlacedEdit} {lo hi : Int} (inner : e.Within k.start k.stop) (outer : k.Within lo hi) :
    e.Within lo hi := by
  unfold Within at *
  omega

theorem stretch_eq {a b : PlacedEdit} : a.stretch = b.stretch ↔ a.start = b.start ∧ a.stop = b.stop := by
  simp [stretch]

/-- An edit lies in no other one if every edit around it has its span and it is the first of its span. -/
theorem isOutermost_iff {all : List PlacedEdit} {e : PlacedEdit} :
    IsOutermost all e ↔ (∀ k ∈ all, e.Within k.start k.stop → k.stretch = e.stretch) ∧
      all.find? (fun k => k.stretch = e.stretch) = some e := by
  constructor
  · rintro ⟨before, behind, rfl, free⟩
    have inFront : ∀ k ∈ before, ¬ e.Within k.start k.stop := fun k member within => free (.inl ⟨k, member, within⟩)
    refine ⟨fun k member within => ?_, ?_⟩
    · rcases List.mem_append.mp member with front | back
      · exact absurd within (inFront k front)
      · rcases List.mem_cons.mp back with rfl | back
        · rfl
        · by_contra other
          exact free (.inr ⟨k, back, within, other⟩)
    · have noFront : before.find? (fun k => k.stretch = e.stretch) = none := by
        refine List.find?_eq_none.mpr fun k member same => inFront k member ?_
        have same := stretch_eq.mp (of_decide_eq_true same)
        unfold Within
        omega
      rw [List.find?_append, noFront, Option.none_or, List.find?_cons_of_pos (by simp)]
  · rintro ⟨around, isFirst⟩
    obtain ⟨-, before, behind, rfl, others⟩ := List.find?_eq_some_iff_append.mp isFirst
    refine ⟨before, behind, rfl, ?_⟩
    rintro (⟨k, member, within⟩ | ⟨k, member, within, other⟩)
    · have same := around k (List.mem_append_left _ member) within
      simpa [same] using others k member
    · exact other (around k (List.mem_append_right _ (.tail _ member)) within)

theorem IsOutermost.mem {all : List PlacedEdit} {e : PlacedEdit} (isOutermost : IsOutermost all e) : e ∈ all := by
  obtain ⟨before, behind, rfl, -⟩ := isOutermost
  simp

/-! ## What order and contained edits matter -/

theorem filter_mergeSort (all : List PlacedEdit) (span : Int × Int) :
    (all.mergeSort precedes).filter (fun k => k.stretch = span) = all.filter fun k => k.stretch = span := by
  have inOrder : (all.filter fun k => k.stretch = span).Pairwise fun a b => a.precedes b = true := by
    refine List.pairwise_of_forall_mem_list fun a inA b inB => ?_
    have left := (List.mem_filter.mp inA).2
    have right := (List.mem_filter.mp inB).2
    have same := stretch_eq.mp ((of_decide_eq_true left).trans (of_decide_eq_true right).symm)
    rw [precedes_iff]
    omega
  have sorted := List.sublist_mergeSort precedes_trans precedes_total inOrder List.filter_sublist
  have kept := sorted.filter fun k => k.stretch = span
  rw [List.filter_filter] at kept
  simp only [Bool.and_self] at kept
  refine (kept.eq_of_length ?_).symm
  exact ((List.mergeSort_perm all precedes).filter _).length_eq.symm

theorem isOutermost_mergeSort {all : List PlacedEdit} {e : PlacedEdit} :
    IsOutermost (all.mergeSort precedes) e ↔ IsOutermost all e := by
  rw [isOutermost_iff, isOutermost_iff, ← List.head?_filter, ← List.head?_filter, filter_mergeSort]
  simp only [List.mem_mergeSort]

theorem isOutermost_drop {before behind : List PlacedEdit} {c : PlacedEdit} (contained : Contained before c behind)
    {e : PlacedEdit} : IsOutermost (before ++ behind) e ↔ IsOutermost (before ++ c :: behind) e := by
  rw [isOutermost_iff, isOutermost_iff]
  have inside : (∀ k ∈ before ++ behind, e.Within k.start k.stop → k.stretch = e.stretch) →
      e.Within c.start c.stop → c.stretch = e.stretch := by
    intro around within
    obtain ⟨k, member, wider⟩ : ∃ k ∈ before ++ behind, c.Within k.start k.stop := by
      rcases contained with ⟨k, member, wider⟩ | ⟨k, member, wider, -⟩
      · exact ⟨k, List.mem_append_left _ member, wider⟩
      · exact ⟨k, List.mem_append_right _ member, wider⟩
    have same := stretch_eq.mp (around k member (within.trans wider))
    rw [stretch_eq]
    unfold Within at within wider
    omega
  have first : (∀ k ∈ before ++ behind, e.Within k.start k.stop → k.stretch = e.stretch) →
      (before ++ behind).find? (fun k => k.stretch = e.stretch) =
        (before ++ c :: behind).find? fun k => k.stretch = e.stretch := by
    intro around
    rw [List.find?_append, List.find?_append]
    by_cases same : c.stretch = e.stretch
    · have wide : e.Within c.start c.stop := by
        have same := stretch_eq.mp same
        unfold Within
        omega
      rcases contained with ⟨k, member, wider⟩ | ⟨k, member, wider, other⟩
      · have alike := around k (List.mem_append_left _ member) (wide.trans wider)
        obtain ⟨d, found⟩ : ∃ d, before.find? (fun k => k.stretch = e.stretch) = some d :=
          Option.isSome_iff_exists.mp (List.find?_isSome.mpr ⟨k, member, by simpa using alike⟩)
        rw [found, Option.some_or, Option.some_or]
      · exact absurd ((around k (List.mem_append_right _ member) (wide.trans wider)).trans same.symm) other
    · rw [List.find?_cons_of_neg (by simpa using same)]
  constructor
  · rintro ⟨around, isFirst⟩
    refine ⟨fun k member => ?_, first around ▸ isFirst⟩
    rcases List.mem_append.mp member with front | back
    · exact around k (List.mem_append_left _ front)
    · rcases List.mem_cons.mp back with rfl | back
      · exact inside around
      · exact around k (List.mem_append_right _ back)
  · rintro ⟨around, isFirst⟩
    have around : ∀ k ∈ before ++ behind, e.Within k.start k.stop → k.stretch = e.stretch := by
      intro k member
      refine around k ?_
      rcases List.mem_append.mp member with front | back
      · exact List.mem_append_left _ front
      · exact List.mem_append_right _ (.tail _ back)
    exact ⟨around, (first around).trans isFirst⟩

theorem find?_stretch {all : List PlacedEdit} (distinct : all.Pairwise fun a b => a.stretch ≠ b.stretch)
    {e : PlacedEdit} : all.find? (fun k => k.stretch = e.stretch) = some e ↔ e ∈ all := by
  constructor
  · exact List.mem_of_find?_eq_some
  · intro member
    induction distinct with
    | nil => cases member
    | @cons d rest apart _ ih =>
      rcases List.mem_cons.mp member with rfl | later
      · rw [List.find?_cons_of_pos (by simp)]
      · rw [List.find?_cons_of_neg (by simpa using apart e later), ih later]

/-- Of edits with spans of their own, those that lie in no other do not depend on the order. -/
theorem isOutermost_perm {all other : List PlacedEdit} (same : all.Perm other)
    (distinct : all.Pairwise fun a b => a.stretch ≠ b.stretch) {e : PlacedEdit} :
    IsOutermost all e ↔ IsOutermost other e := by
  rw [isOutermost_iff, isOutermost_iff, find?_stretch distinct,
    find?_stretch (same.pairwise distinct fun different => Ne.symm different), same.mem_iff]
  simp only [same.mem_iff]

/-! ## Edits that are left -/

def Ahead (a b : PlacedEdit) : Prop := a.start < b.start ∧ a.stop < b.stop

instance : Std.Irrefl Ahead := ⟨fun a ahead => by unfold Ahead at ahead; omega⟩

instance : Std.Antisymm Ahead := ⟨fun a b first second => by unfold Ahead at *; omega⟩

def thin (last : Option PlacedEdit) : List PlacedEdit → List PlacedEdit
  | [] => []
  | e :: rest => if last.any fun k => e.stop ≤ k.stop then thin last rest else e :: thin (some e) rest

theorem isOutermost_cons {d e : PlacedEdit} {rest : List PlacedEdit} : IsOutermost (d :: rest) e ↔
    (e = d ∧ ∀ k ∈ rest, d.Within k.start k.stop → k.stretch = d.stretch) ∨
      (IsOutermost rest e ∧ ¬ e.Within d.start d.stop) := by
  constructor
  · rintro ⟨before, behind, whole, free⟩
    cases before with
    | nil =>
      obtain ⟨rfl, rfl⟩ := List.cons.inj whole
      refine .inl ⟨rfl, fun k member within => ?_⟩
      by_contra other
      exact free (.inr ⟨k, member, within, other⟩)
    | cons first before =>
      obtain ⟨rfl, rfl⟩ := List.cons.inj whole
      refine .inr ⟨⟨before, behind, rfl, fun contained => free ?_⟩, fun within => free (.inl ⟨d, .head _, within⟩)⟩
      exact contained.imp_left fun ⟨k, member, within⟩ => ⟨k, .tail _ member, within⟩
  · rintro (⟨rfl, around⟩ | ⟨⟨before, behind, rfl, free⟩, outside⟩)
    · refine ⟨[], rest, rfl, ?_⟩
      rintro (⟨k, none, -⟩ | ⟨k, member, within, other⟩)
      · cases none
      · exact other (around k member within)
    · refine ⟨d :: before, behind, rfl, ?_⟩
      rintro (⟨k, member, within⟩ | contained)
      · rcases List.mem_cons.mp member with rfl | member
        · exact outside within
        · exact free (.inl ⟨k, member, within⟩)
      · exact free (.inr contained)

section Sorted

variable {last : Option PlacedEdit} {edits : List PlacedEdit}

theorem mem_thin (sorted : edits.Pairwise fun a b => a.precedes b = true)
    (behind : ∀ k ∈ last, ∀ e ∈ edits, k.precedes e = true) {e : PlacedEdit} :
    e ∈ thin last edits ↔ (∀ k ∈ last, ¬ e.Within k.start k.stop) ∧ IsOutermost edits e := by
  induction edits generalizing last with
  | nil =>
    simp only [thin, List.not_mem_nil, false_iff, not_and]
    intro _ isOutermost
    cases isOutermost.mem
  | cons d rest ih =>
    obtain ⟨first, sorted⟩ := List.pairwise_cons.mp sorted
    rw [thin, isOutermost_cons]
    split
    case isTrue ends =>
      -- The edit lies in the last one, and so does all that lies in it.
      obtain ⟨k, rfl, ends⟩ := (Option.any_eq_true ..).mp ends
      have inside : d.Within k.start k.stop := by
        have sortedHere := precedes_iff.mp (behind k rfl d (.head _))
        have ends := of_decide_eq_true ends
        unfold Within
        omega
      rw [ih sorted fun k' same b member => behind k' same b (.tail _ member)]
      constructor
      · rintro ⟨outside, isOutermost⟩
        exact ⟨outside, .inr ⟨isOutermost, fun within => outside k rfl (within.trans inside)⟩⟩
      · rintro ⟨outside, ⟨rfl, -⟩ | ⟨isOutermost, -⟩⟩
        · exact absurd inside (outside k rfl)
        · exact ⟨outside, isOutermost⟩
    case isFalse goesOn =>
      have farther : ∀ k ∈ last, k.stop < d.stop := by
        rintro k rfl
        simpa using goesOn
      rw [List.mem_cons, ih sorted (by rintro k ⟨⟩; exact first)]
      constructor
      · rintro (rfl | ⟨outside, isOutermost⟩)
        · refine ⟨fun k same within => ?_, .inl ⟨rfl, fun k member within => ?_⟩⟩
          · have farther := farther k same
            unfold Within at within
            omega
          · have sortedHere := precedes_iff.mp (first k member)
            rw [stretch_eq]
            unfold Within at within
            omega
        · have outside : ¬ e.Within d.start d.stop := outside d rfl
          refine ⟨fun k same within => ?_, .inr ⟨isOutermost, outside⟩⟩
          have farther := farther k same
          have sortedHere := precedes_iff.mp (first e isOutermost.mem)
          unfold Within at within outside
          omega
      · rintro ⟨-, ⟨rfl, -⟩ | ⟨isOutermost, outside⟩⟩
        · exact .inl rfl
        · exact .inr ⟨by rintro k ⟨⟩; exact outside, isOutermost⟩

theorem thin_ahead (sorted : edits.Pairwise fun a b => a.precedes b = true)
    (behind : ∀ k ∈ last, ∀ e ∈ edits, k.precedes e = true) :
    (thin last edits).Pairwise Ahead ∧ ∀ k ∈ last, ∀ e ∈ thin last edits, k.Ahead e := by
  induction edits generalizing last with
  | nil => simp [thin]
  | cons d rest ih =>
    obtain ⟨first, sorted⟩ := List.pairwise_cons.mp sorted
    rw [thin]
    split
    case isTrue => exact ih sorted fun k same b member => behind k same b (.tail _ member)
    case isFalse goesOn =>
      obtain ⟨apart, after⟩ := @ih (some d) sorted (by rintro k ⟨⟩; exact first)
      refine ⟨List.pairwise_cons.mpr ⟨after d rfl, apart⟩, ?_⟩
      rintro k rfl e member
      have here : k.Ahead d := by
        have sortedHere := precedes_iff.mp (behind k rfl d (.head _))
        have farther : k.stop < d.stop := by simpa using goesOn
        unfold Ahead
        omega
      rcases List.mem_cons.mp member with rfl | later
      · exact here
      · have later := after d rfl e later
        unfold Ahead at *
        omega

end Sorted

theorem sweep_thin (last : Option PlacedEdit) (edits : List PlacedEdit) :
    sweep last (thin last edits) = sweep last edits := by
  induction edits generalizing last with
  | nil => rfl
  | cons e rest ih =>
    rw [thin]
    cases last with
    | none => simp [sweep, ih]
    | some k =>
      by_cases ends : e.stop ≤ k.stop
      · simp [sweep, ends, ih]
      · simp [sweep, ends, ih]

/-- Edits that begin and end one behind the other are all kept if none overlaps with the next.  Otherwise one is
reported that overlaps with an edit in front of it. -/
theorem sweep_ahead {last : Option PlacedEdit} {edits : List PlacedEdit} (ahead : edits.Pairwise Ahead)
    (behind : ∀ k ∈ last, ∀ e ∈ edits, k.Ahead e) :
    (sweep last edits = .ok edits ∧ edits.Pairwise (fun a b => a.stop ≤ b.start) ∧
        ∀ k ∈ last, ∀ e ∈ edits, k.stop ≤ e.start) ∨
      ∃ a b, a ∈ last.toList ++ edits ∧ b ∈ edits ∧ a.Overlaps b ∧
        sweep last edits = .error (.overlapping b.edit.start.line) := by
  induction edits generalizing last with
  | nil => exact .inl ⟨rfl, .nil, fun _ _ _ member => nomatch member⟩
  | cons e rest ih =>
    obtain ⟨first, ahead⟩ := List.pairwise_cons.mp ahead
    by_cases overlaps : ∃ k ∈ last, e.start < k.stop
    · obtain ⟨k, rfl, overlaps⟩ := overlaps
      have here := behind k rfl e (.head _)
      refine .inr ⟨k, e, by simp, .head _, ⟨here.1, overlaps, here.2⟩, ?_⟩
      rw [sweep, if_neg (by unfold Ahead at here; omega), if_pos overlaps]
    · have clear : ∀ k ∈ last, k.stop ≤ e.start := fun k same => by
        by_contra inside
        exact overlaps ⟨k, same, by omega⟩
      have keeps : sweep last (e :: rest) = (sweep (some e) rest).map (e :: ·) := by
        cases last with
        | none => cases isSwept : sweep (some e) rest <;> simp [sweep, isSwept] <;> rfl
        | some k =>
          have here := behind k rfl e (.head _)
          rw [sweep, if_neg (by unfold Ahead at here; omega), if_neg (by have := clear k rfl; omega)]
          cases sweep (some e) rest <;> rfl
      rcases @ih (some e) ahead (by rintro k ⟨⟩; exact first) with
        ⟨kept, apart, after⟩ | ⟨a, b, inA, inB, overlaps, failed⟩
      · refine .inl ⟨by rw [keeps, kept]; rfl, List.pairwise_cons.mpr ⟨after e rfl, apart⟩, fun k same d member => ?_⟩
        have here := clear k same
        rcases List.mem_cons.mp member with rfl | later
        · exact here
        · have later := first d later
          unfold Ahead at later
          omega
      · exact .inr ⟨a, b, List.mem_append_right _ inA, .tail _ inB, overlaps, by rw [keeps, failed]; rfl⟩

def outer (all : List PlacedEdit) : List PlacedEdit := thin none (all.mergeSort precedes)

theorem mem_outer {all : List PlacedEdit} {e : PlacedEdit} : e ∈ outer all ↔ IsOutermost all e := by
  rw [outer, mem_thin (List.pairwise_mergeSort precedes_trans precedes_total all) (by simp), isOutermost_mergeSort]
  simp

theorem outer_ahead (all : List PlacedEdit) : (outer all).Pairwise Ahead :=
  (thin_ahead (List.pairwise_mergeSort precedes_trans precedes_total all) (by simp)).1

theorem outer_congr {all other : List PlacedEdit} (same : ∀ e, IsOutermost all e ↔ IsOutermost other e) :
    outer all = outer other := by
  refine (outer_ahead all).eq_of_mem_iff (outer_ahead other) fun e => ?_
  rw [mem_outer, mem_outer, same]

end PlacedEdit

end MacroExpand
