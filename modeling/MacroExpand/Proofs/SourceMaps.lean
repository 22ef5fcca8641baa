import MacroExpand.Proofs.Retaining

/-!
# Reading source maps

The mappings of a source map list the segments of each line of the output.  A segment is a row of numbers in base64, each
counted from the number of its kind in front of it.  Read so, the mappings of code that is emitted with its lines retained
lead every line to the start of the line with the same number (`emitted_lines_mapped`).
-/

set_option autoImplicit false

namespace MacroExpand

namespace SourceMap

/-! ## Numbers of a segment -/

def digits : Text := chars "ABCDEFGHIJKLMNOPQRSTUVWXYZabcdefghijklmnopqrstuvwxyz0123456789+/"

def signed (n : Nat) : Int := if n % 2 = 1 then -(n / 2 : Nat) else (n / 2 : Nat)

/-- The numbers of a segment.  A digit holds five bits, the lowest of a number first, and above them a bit that says
whether the number goes on.  The digits in front give `value`, and the next one counts for `scale`. -/
def numbers? (scale value : Nat) : Text → Option (List Int)
  | [] => if scale = 1 then some [] else none
  | c :: rest => do
    let digit ← digits.idxOf? c
    let value := value + scale * (digit % 32)
    if digit < 32 then return signed value :: (← numbers? 1 0 rest)
    else numbers? (32 * scale) value rest

/-! ## Segments and lines -/

/-- A place in a source, with one of the names if there is one.  All are counted from zero. -/
structure Origin where
  source : Int
  line : Int
  column : Int
  name : Option Int := none
  deriving DecidableEq, Repr

/-- From a column of its line on, the output comes from some place, or from none. -/
structure Segment where
  column : Int
  origin : Option Origin
  deriving DecidableEq, Repr

/-- What the numbers of the next segment are counted from. -/
structure Counts where
  column : Int := 0
  source : Int := 0
  line : Int := 0
  sourceColumn : Int := 0
  name : Int := 0

def entries (mark : Char) (list : Text) : List Text := if list.isEmpty then [] else list.splitOnChar mark

namespace Counts

def segment? (counts : Counts) : List Int → Option (Counts × Segment)
  | [column] =>
    let counts := { counts with column := counts.column + column }
    some (counts, ⟨counts.column, none⟩)
  | [column, source, line, sourceColumn] =>
    let counts := ⟨counts.column + column, counts.source + source, counts.line + line,
      counts.sourceColumn + sourceColumn, counts.name⟩
    some (counts, ⟨counts.column, some ⟨counts.source, counts.line, counts.sourceColumn, none⟩⟩)
  | [column, source, line, sourceColumn, name] =>
    let counts := ⟨counts.column + column, counts.source + source, counts.line + line,
      counts.sourceColumn + sourceColumn, counts.name + name⟩
    some (counts, ⟨counts.column, some ⟨counts.source, counts.line, counts.sourceColumn, some counts.name⟩⟩)
  | _ => none

/-- The segments of one line. -/
def segments? (counts : Counts) : List Text → Option (Counts × List Segment)
  | [] => some (counts, [])
  | text :: rest => do
    let (counts, segment) ← counts.segment? (← numbers? 1 0 text)
    let (counts, segments) ← counts.segments? rest
    return (counts, segment :: segments)

def lines? (counts : Counts) : List Text → Option (List (List Segment))
  | [] => some []
  | text :: rest => do
    let (counts, segments) ← segments? { counts with column := 0 } (entries ',' text)
    return segments :: (← counts.lines? rest)

end Counts

/-- The segments of each line of the output. -/
def segments? (map : SourceMap) : Option (List (List Segment)) := Counts.lines? {} (entries ';' map.mappings)

def lineStart (line : Nat) : Segment := ⟨0, some ⟨0, line, 0, none⟩⟩

example : segments? ⟨[], [], [], chars "AAgBC,EADA;;CACAA"⟩ =
    some [[⟨0, some ⟨0, 16, 1, none⟩⟩, ⟨2, some ⟨0, 15, 1, none⟩⟩], [], [⟨1, some ⟨0, 16, 1, some 0⟩⟩]] := by decide +kernel

/-! ## Lines that keep their numbers -/

theorem Counts.lines?_segment {text : Text} (advance : Int) (entry : entries ',' text = [text])
    (numbers : numbers? 1 0 text = some [0, 0, advance, 0]) (counts : Counts) (rest : List Text) :
    counts.lines? (text :: rest) =
      (lines? { counts with column := 0, line := counts.line + advance } rest).map
        ([⟨0, some ⟨counts.source, counts.line + advance, counts.sourceColumn, none⟩⟩] :: ·) := by
  rw [lines?, entry]
  simp only [segments?, numbers, segment?, Option.bind_eq_bind, Option.bind_some, Option.pure_def, add_zero,
    Option.map_eq_bind]
  rfl

theorem Counts.lines?_replicate (line count : Nat) :
    lines? { line := line } (List.replicate count (chars "AACA")) =
      some ((List.range' (line + 1) count).map fun k => [lineStart k]) := by
  induction count generalizing line with
  | zero => rfl
  | succ count ih =>
    rw [List.replicate_succ, lines?_segment 1 (by decide +kernel) (by decide +kernel), List.range'_succ, List.map_cons]
    exact (congrArg (Option.map _) (ih (line + 1))).trans rfl

theorem followingLines_eq (count : Nat) (first : Text) :
    first ++ followingLines count = [';'].intercalate (first :: List.replicate count (chars "AACA")) := by
  induction count generalizing first with
  | zero => rfl
  | succ count ih =>
    rw [List.replicate_succ, List.intercalate_cons_cons, ← ih]
    exact (List.append_assoc first [';'] _).symm

theorem entries_lineMappings (count : Nat) :
    entries ';' (lineMappings (count + 1)) = chars "AAAA" :: List.replicate count (chars "AACA") := by
  have unmarked : ∀ line ∈ chars "AAAA" :: List.replicate count (chars "AACA"), ';' ∉ line := by
    intro line member
    rcases List.mem_cons.mp member with rfl | member
    · decide
    · obtain rfl := List.eq_of_mem_replicate member
      decide
  have whole : lineMappings (count + 1) = chars "AAAA" ++ followingLines count := rfl
  rw [entries, whole, if_neg (by simp [chars]), Text.splitOnChar, followingLines_eq]
  exact List.splitOn_intercalate _ unmarked (List.cons_ne_nil _ _)

theorem segments?_lineMappings {map : SourceMap} {count : Nat} (mapped : map.mappings = lineMappings count) :
    map.segments? = some ((List.range count).map fun k => [lineStart k]) := by
  rw [segments?, mapped]
  cases count with
  | zero => rfl
  | succ count =>
    rw [entries_lineMappings, Counts.lines?_segment 0 (by decide +kernel) (by decide +kernel), List.range_eq_range',
      List.range'_succ, List.map_cons]
    exact (congrArg (Option.map _) (Counts.lines?_replicate 0 count)).trans rfl

end SourceMap

/-! ## Maps that are emitted -/

variable {tree : Tree} {source : Text} {edits : List Edit} {options : EmitOptions} {emitted : Emitted}

theorem emit_sourceMap (retained : options.retainLines = true) (run : emit tree source edits options = .ok emitted) :
    emitted.sourceMap =
      ⟨options.fileName, [options.fileName], [], SourceMap.lineMappings emitted.code.lines.length⟩ := by
  unfold emit at run
  rw [if_pos retained] at run
  obtain ⟨kept, -, run⟩ := Sandbox.bind_ok run
  obtain ⟨⟨⟩, -, run⟩ := Sandbox.bind_ok run
  obtain ⟨code, -, run⟩ := Sandbox.bind_ok run
  dsimp only at run
  split at run
  case isTrue =>
    obtain ⟨code', -, run⟩ := Sandbox.bind_ok run
    cases run
    rfl
  case isFalse =>
    cases run
    rfl

/-- The map of code that is emitted with its lines retained has one source, and gives each line of the code one segment:
its column zero comes from column zero of the line of that source with the same number. -/
theorem emitted_lines_mapped (retained : options.retainLines = true)
    (run : emit tree source edits options = .ok emitted) :
    emitted.sourceMap.sources = [options.fileName] ∧
      emitted.sourceMap.segments? =
        some ((List.range emitted.code.lines.length).map fun k => [⟨0, some ⟨0, k, 0, none⟩⟩]) := by
  have isMap := emit_sourceMap retained run
  exact ⟨by rw [isMap], SourceMap.segments?_lineMappings (by rw [isMap])⟩

/-- Three lines, the last one without an end. -/
def threeLines : Text := chars "a = 1\nb = 2\nc = 3"

theorem threeLines_mapped : ∃ emitted, emit default threeLines [] { fileName := chars "m.py" } = .ok emitted ∧
    emitted.sourceMap.mappings = chars "AAAA;AACA;AACA" ∧ emitted.sourceMap.sources = [chars "m.py"] ∧
      emitted.sourceMap.segments? =
        some [[⟨0, some ⟨0, 0, 0, none⟩⟩], [⟨0, some ⟨0, 1, 0, none⟩⟩], [⟨0, some ⟨0, 2, 0, none⟩⟩]] := by
  have code : (emit default threeLines [] { fileName := chars "m.py" }).map Emitted.code = .ok threeLines := by
    rw [emit_code rfl]
    rfl
  obtain ⟨emitted, run, same⟩ : ∃ emitted, emit default threeLines [] { fileName := chars "m.py" } = .ok emitted ∧
      emitted.code = threeLines := by
    cases run : emit default threeLines [] { fileName := chars "m.py" } with
    | ok emitted =>
      rw [run] at code
      exact ⟨emitted, rfl, Except.ok.inj code⟩
    | error e =>
      rw [run] at code
      cases code
  have count : emitted.code.lines.length = 3 := by
    rw [same]
    decide
  obtain ⟨sources, segments⟩ := emitted_lines_mapped rfl run
  rw [count] at segments
  refine ⟨emitted, run, ?_, sources, segments⟩
  rw [emit_sourceMap rfl run, count]
  rfl

end MacroExpand
