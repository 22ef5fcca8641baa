import MacroExpand.Files

/-!
# What stays when files are written

Writing a file changes the bytes at one place, and making directories changes the bytes of no file.
-/

set_option autoImplicit false

namespace MacroExpand

namespace Files

variable {files written : Files} {p q : Place} {path : PathText}

/-- The bytes of the file at a place. -/
def bytes? (files : Files) (p : Place) : Option (List UInt8) :=
  match files.at? p with
  | some (.file bytes) => some bytes
  | _ => none

theorem bytes?_of_at? {bytes : List UInt8} (found : files.at? p = some (.file bytes)) :
    files.bytes? p = some bytes := by
  rw [bytes?, found]

theorem bytes?_congr (same : written.at? p = files.at? p) : written.bytes? p = files.bytes? p := by
  rw [bytes?, bytes?, same]

theorem bytes?_eq_none_of_isFile (free : files.isFile p = false) : files.bytes? p = none := by
  rw [isFile] at free
  cases found : files.at? p with
  | none => rw [bytes?, found]
  | some node =>
    cases node with
    | file bytes =>
      rw [found] at free
      cases free
    | directory => rw [bytes?, found]

theorem at?_of_bytes? {bytes : List UInt8} (held : files.bytes? p = some bytes) :
    files.at? p = some (.file bytes) := by
  rw [bytes?] at held
  cases found : files.at? p with
  | none =>
    rw [found] at held
    cases held
  | some node =>
    cases node with
    | file stored =>
      rw [found] at held
      cases held
      rfl
    | directory =>
      rw [found] at held
      cases held

theorem read_eq_ok {bytes : List UInt8} (read : files.read path = .ok bytes) :
    files.bytes? (files.place path) = some bytes := by
  unfold Files.read at read
  dsimp only at read
  split at read
  · cases read
    exact bytes?_of_at? ‹_›
  · cases read
  · cases read

theorem read_congr (home : written.home = files.home)
    (same : written.bytes? (files.place path) = files.bytes? (files.place path)) {bytes : List UInt8}
    (read : written.read path = .ok bytes) : files.read path = .ok bytes := by
  have place : written.place path = files.place path := by rw [Files.place, Files.place, home]
  have found := read_eq_ok read
  rw [place, same] at found
  rw [Files.read, at?_of_bytes? found]

/-! ## Putting something somewhere -/

@[simp] theorem put_home (files : Files) (p : Place) (node : FileNode) : (files.put p node).home = files.home := by
  unfold put
  split <;> rfl

theorem find?_replaced_of_ne (nodes : List (Place × FileNode)) (node : FileNode) (other : q ≠ p) :
    (nodes.map fun n => if n.1 = p then (p, node) else n).find? (fun n => n.1 = q) =
      nodes.find? fun n => n.1 = q := by
  induction nodes with
  | nil => rfl
  | cons n rest ih =>
    rw [List.map_cons, List.find?_cons, List.find?_cons, ih]
    by_cases here : n.1 = p
    · simp [here, Ne.symm other]
    · rw [if_neg here]

theorem find?_replaced_self (nodes : List (Place × FileNode)) (node : FileNode)
    (present : (nodes.any fun n => n.1 = p) = true) :
    (nodes.map fun n => if n.1 = p then (p, node) else n).find? (fun n => n.1 = p) = some (p, node) := by
  induction nodes with
  | nil => cases present
  | cons n rest ih =>
    rw [List.map_cons, List.find?_cons]
    by_cases here : n.1 = p
    · simp [here]
    · have later : (rest.any fun n => decide (n.1 = p)) = true := by
        rw [List.any_cons, decide_eq_false here] at present
        exact present
      simp [here, ih later]

theorem at?_put_of_ne (node : FileNode) (other : q ≠ p) : (files.put p node).at? q = files.at? q := by
  rw [at?, at?, put_home]
  split
  · rfl
  · congr 1
    unfold put
    split
    · exact find?_replaced_of_ne files.nodes node other
    · have apart : ([(p, node)] : List (Place × FileNode)).find? (fun n => decide (n.1 = q)) = none := by
        simp [Ne.symm other]
      rw [List.find?_append, apart, Option.or_none]

theorem at?_put_self (node : FileNode) (outside : p.isPrefixOf files.home = false) :
    (files.put p node).at? p = some node := by
  rw [at?, put_home, outside, if_neg (by decide)]
  unfold put
  split
  · rename_i present
    rw [find?_replaced_self files.nodes node present]
    rfl
  · rename_i absent
    have nowhere : files.nodes.find? (fun n => decide (n.1 = p)) = none := by
      rw [List.find?_eq_none]
      intro n member here
      exact absent (List.any_eq_true.mpr ⟨n, member, here⟩)
    rw [List.find?_append, nowhere]
    simp

/-! ## Writing -/

theorem write_eq_ok {bytes : List UInt8} (ok : files.write path bytes = .ok written) :
    files.at? (files.place path) ≠ some .directory ∧ written = files.put (files.place path) (.file bytes) := by
  unfold write at ok
  dsimp only at ok
  split at ok
  · cases ok
  · cases ok
  · rename_i free
    cases ok
    exact ⟨free, rfl⟩

theorem write_home {bytes : List UInt8} (ok : files.write path bytes = .ok written) :
    written.home = files.home := by
  rw [(write_eq_ok ok).2, put_home]

theorem bytes?_write {bytes : List UInt8} (ok : files.write path bytes = .ok written) :
    written.bytes? (files.place path) = some bytes := by
  obtain ⟨free, rfl⟩ := write_eq_ok ok
  refine bytes?_of_at? (at?_put_self _ ?_)
  cases inside : (files.place path).isPrefixOf files.home with
  | false => rfl
  | true => exact absurd (by rw [at?, inside, if_pos rfl]) free

theorem bytes?_write_of_ne {bytes : List UInt8} (ok : files.write path bytes = .ok written)
    (other : q ≠ files.place path) : written.bytes? q = files.bytes? q := by
  obtain ⟨-, rfl⟩ := write_eq_ok ok
  exact bytes?_congr (at?_put_of_ne _ other)

/-! ## Making directories -/

theorem bytes?_put_directory (free : files.bytes? p = none) :
    (files.put p .directory).bytes? q = files.bytes? q := by
  by_cases here : q = p
  · subst here
    rw [free]
    cases inside : q.isPrefixOf files.home with
    | false => rw [bytes?, at?_put_self _ inside]
    | true => rw [bytes?, at?, put_home, inside, if_pos rfl]
  · exact bytes?_congr (at?_put_of_ne _ here)

theorem makeEach_keeps (ps : List Place) (free : ∀ p ∈ ps, files.bytes? p = none) :
    let made := ps.foldl (fun files p => if files.isDirectory p then files else files.put p .directory) files
    made.home = files.home ∧ ∀ q, made.bytes? q = files.bytes? q := by
  induction ps generalizing files with
  | nil => exact ⟨rfl, fun _ => rfl⟩
  | cons p ps ih =>
    intro made
    by_cases there : files.isDirectory p = true
    · have kept := ih fun q member => free q (List.mem_cons_of_mem p member)
      simpa [made, there] using kept
    · have here := free p List.mem_cons_self
      have next : ∀ q ∈ ps, (files.put p .directory).bytes? q = none := by
        intro q member
        rw [bytes?_put_directory here]
        exact free q (List.mem_cons_of_mem p member)
      obtain ⟨home, kept⟩ := ih next
      have step : made = ps.foldl (fun files p => if files.isDirectory p then files else files.put p .directory)
          (files.put p .directory) := by
        simp only [made, List.foldl_cons, if_neg there]
      rw [step]
      exact ⟨home.trans (put_home files p _), fun q => (kept q).trans (bytes?_put_directory here)⟩

theorem mem_upTo (member : q ∈ upTo p) : q = p ∨ q ∈ upTo p.dropLast := by
  obtain ⟨n, small, rfl⟩ := List.mem_map.mp member
  have small := List.mem_range.mp small
  by_cases whole : p.length ≤ n
  · exact .inl (List.take_of_length_le whole)
  · refine .inr (List.mem_map.mpr ⟨n, ?_, ?_⟩)
    · rw [List.mem_range, List.length_dropLast]
      omega
    · rw [List.dropLast_eq_take, List.take_take, Nat.min_eq_left (by omega)]

theorem makeDirectories_keeps (ok : files.makeDirectories path = .ok written) :
    written.home = files.home ∧ ∀ q, written.bytes? q = files.bytes? q := by
  unfold makeDirectories at ok
  dsimp only at ok
  split at ok
  · cases ok
    exact ⟨rfl, fun _ => rfl⟩
  · split at ok
    · cases ok
    · rename_i noFile
      split at ok
      · cases ok
      · rename_i noFiles
        cases ok
        refine makeEach_keeps _ fun p member => bytes?_eq_none_of_isFile ?_
        rcases mem_upTo member with rfl | above
        · simpa using noFile
        · simp only [List.any_eq_true, not_exists, not_and, Bool.not_eq_true] at noFiles
          exact noFiles p above

end Files

end MacroExpand
