import AsmColumns.Command.Run

/-!
# Replacing a file

A file is replaced by writing another one and moving that in its place.  Where a path leads depends
only on which names are folders, and neither step makes a folder or takes one away, so every path
leads where it led before.  If the file beside it can be written at all, the file at the path is
replaced, and reading the path gives the bytes that were written.
-/

namespace AsmColumns
namespace Directory

/-! ## Entries -/

/-- The entry put into a directory is found, and all others are as before. -/
theorem lookup_put (dir : Directory) (name : Text) (entry : Entry) (other : Text) :
    entry? (dir.put name entry) other = if other = name then some entry else dir.entry? other := by
  unfold put
  split
  · next hany =>
    -- The names stay in place, so the search stops where it stopped before.
    have hnames : ((fun old : Text × Entry => old.1 == other) ∘
        fun old => if old.1 == name then (name, entry) else old) = fun old => old.1 == other := by
      funext old
      by_cases hold : old.1 = name <;> simp [hold]
    rw [ entry?, entry?, List.find?_map, hnames]
    cases hfind : dir.entries.find? fun old => old.1 == other with
    | some old =>
        have hold : old.1 = other := by simpa using List.find?_some hfind
        by_cases hother : other = name <;> simp [hold, hother]
    | none =>
        have hother : other ≠ name := by
          rintro rfl
          rw [List.find?_eq_none] at hfind
          obtain ⟨old, hmem, hold⟩ := List.any_eq_true.mp hany
          exact hfind old hmem hold
        simp [hother]
  · next hany =>
    rw [ entry?, entry?, List.find?_append]
    by_cases hother : other = name
    · have hnone : dir.entries.find? (fun old => old.1 == name) = none := by
        rw [List.find?_eq_none]
        exact fun old hmem hold => hany (List.any_eq_true.mpr ⟨old, hmem, hold⟩)
      simp [hother, hnone]
    · have hne : (name == other) = false := by simpa using Ne.symm hother
      simp [hother, hne]

theorem lookup_erase_of_ne (dir : Directory) {name other : Text} (h : other ≠ name) :
    entry? (dir.erase name) other = dir.entry? other := by
  have hkeep : (fun old : Text × Entry =>
      decide ((old.1 != name) = true ∧ (old.1 == other) = true)) = fun old => old.1 == other := by
    funext old
    by_cases hold : old.1 = other
    · simp [hold, h]
    · simp [hold]
  rw [ entry?, entry?, erase, List.find?_filter, hkeep]

theorem isFolder_erase (dir : Directory) {name : Text} (h : dir.isFolder name = false)
    (other : Text) : (dir.erase name).isFolder other = dir.isFolder other := by
  by_cases hother : other = name
  · subst hother
    have hnone : entry? (dir.erase other) other = none := by
      simp [ entry?, erase, List.find?_filter]
    rw [h, isFolder, hnone]
  · rw [isFolder, isFolder, lookup_erase_of_ne dir hother]

theorem isFolder_put_file (dir : Directory) {name : Text} (h : dir.isFolder name = false)
    (bytes : ByteArray) (other : Text) :
    (dir.put name (.file bytes)).isFolder other = dir.isFolder other := by
  rw [isFolder, lookup_put]
  by_cases hother : other = name
  · rw [if_pos hother, hother, h]
  · rw [if_neg hother, isFolder]

/-! ## Where a path leads -/

section locate

variable {dir dir' : Directory} {path : Path} {name : Text}
  (hfolders : ∀ name, dir'.isFolder name = dir.isFolder name)
include hfolders

theorem collapseFrom_eq (done parts : List Text) :
    dir'.collapseFrom done parts = dir.collapseFrom done parts := by
  induction parts generalizing done with
  | nil => rfl
  | cons part rest ih => simp only [collapseFrom, hfolders, ih]

theorem resolve_eq (path : Path) : dir'.resolve path = dir.resolve path := by
  rw [resolve, resolve, collapseFrom_eq hfolders]

theorem parentFault?_eq_none {resolved : Path} (h : dir.parentFault? path resolved = none) :
    dir'.parentFault? path resolved = none := by
  rw [parentFault?, List.findSome?_eq_none_iff] at h ⊢
  intro n hn
  have hold := h n hn
  simp only at hold ⊢
  have hfolder := hfolders (Path.text { resolved with parts := resolved.parts.take (n + 1) })
  have hparent : dir.isFolder
      (Path.text { resolved with parts := resolved.parts.take (n + 1) }) = true := by
    rw [isFolder]
    split at hold <;> simp_all
  rw [hparent, isFolder] at hfolder
  split at hfolder <;> simp_all

/-- A path leads to the same name in directories with the same folders. -/
theorem locate_eq (h : dir.locate path = .ok name) : dir'.locate path = .ok name := by
  rw [locate] at h ⊢
  rw [resolve_eq hfolders]
  split at h
  · cases h
  · next hnull =>
    rw [if_neg hnull]
    split at h
    · cases h
    · next hends =>
      split at h
      · cases h
      · next hparents =>
        rw [if_neg hends, parentFault?_eq_none hfolders hparents]
        exact h

end locate

/-! ## Writing and moving -/

section write

variable {dir after : Directory} {path : Path} {name : Text} {bytes : ByteArray}

theorem write_cases (h : dir.write path bytes = .ok after) :
    ∃ name, dir.locate path = .ok name ∧ dir.isFolder name = false ∧
      after = dir.put name (.file bytes) := by
  rw [write] at h
  split at h
  · cases h
  · next name hname =>
    refine ⟨name, hname, ?_⟩
    rw [isFolder]
    split at h
    · cases h
    · cases h
    · next hfolder _ =>
      cases h
      refine ⟨?_, rfl⟩
      split
      · next hentry => exact absurd hentry hfolder
      · rfl

theorem read_cases (h : dir.read path = .ok bytes) :
    ∃ name, dir.locate path = .ok name ∧ dir.entry? name = some (.file bytes) := by
  rw [read] at h
  split at h
  · cases h
  · next name hname =>
    refine ⟨name, hname, ?_⟩
    split at h
    · next hentry =>
      cases h
      exact hentry
    · cases h
    · cases h

/-- A file that is moved to a path which leads to no folder is read there. -/
theorem exists_move {source target : Path} {old new : Text} (hold : dir.locate source = .ok old)
    (hentry : dir.entry? old = some (.file bytes)) (hnew : dir.locate target = .ok new)
    (hplain : dir.isFolder new = false) :
    ∃ after, dir.move source target = .ok after ∧ after.read target = .ok bytes := by
  have hfile : dir.isFolder old = false := by rw [isFolder, hentry]
  have herase := isFolder_erase dir hfile
  have hput := isFolder_put_file (dir.erase old) ((herase new).trans hplain) bytes
  have hlocate := locate_eq (fun other => (hput other).trans (herase other)) hnew
  refine ⟨(dir.erase old).put new (.file bytes), ?_, ?_⟩
  · simp only [move, hold, hnew, hentry]
  · simp only [read, hlocate, lookup_put, if_true]

/-- Whatever the bytes are, a file can be written at the path. -/
def Writable (dir : Directory) (path : Path) : Prop :=
  ∀ bytes, ∃ after, dir.write path bytes = .ok after

end write

/-! ## Text files -/

section text

variable {t content : Text} {bytes : ByteArray}

theorem return_notMem_universalNewlines (t : Text) : '\r' ∉ universalNewlines t := by
  fun_induction universalNewlines t with
  | case1 => simp
  | case2 rest ih => simpa using ih
  | case3 rest _ ih => simpa using ih
  | case4 c rest hnot hreturn ih =>
      have hc : c ≠ '\r' := by
        rintro rfl
        exact hreturn rfl
      simp [ih, Ne.symm hc]

theorem universalNewlines_of_notMem (h : '\r' ∉ t) : universalNewlines t = t := by
  fun_induction universalNewlines t with
  | case1 => rfl
  | case2 => simp at h
  | case3 => simp at h
  | case4 c rest _ _ ih => rw [ih fun hmem => h (List.mem_cons_of_mem _ hmem)]

theorem decode?_encode (h : '\r' ∉ t) : decode? (encode t) = some t := by
  have hvalid : (String.ofList t).toUTF8.IsValidUTF8 := (String.ofList t).isValidUTF8
  have hstring : String.fromUTF8? (String.ofList t).toUTF8 = some (String.ofList t) := by
    rw [String.fromUTF8?, dif_pos hvalid]
    rfl
  rw [decode?, encode, hstring, Option.map_some, String.toList_ofList,
    universalNewlines_of_notMem h]

theorem decodeMarked?_encode (hsize : markBytes.length ≤ (encode t).size) (h : '\r' ∉ t) :
    decodeMarked? (encode t) = some (dropMark t) := by
  have hlong : ¬ ((encode t).size < markBytes.length) := by omega
  rw [decodeMarked?, decode?_encode h, if_neg (by simp [hlong]), Option.map_some]

theorem return_notMem_of_decodeMarked? (h : decodeMarked? bytes = some t) : '\r' ∉ t := by
  rw [decodeMarked?] at h
  split at h
  · cases h
    simp
  · obtain ⟨marked, hmarked, rfl⟩ := Option.map_eq_some_iff.mp h
    obtain ⟨s, -, rfl⟩ := Option.map_eq_some_iff.mp hmarked
    intro hmem
    refine return_notMem_universalNewlines s.toList ?_
    unfold dropMark at hmem
    split at hmem
    · split at hmem
      · next hs _ => exact hs ▸ List.mem_cons_of_mem _ hmem
      · exact hmem
    · simp at hmem

/-- A text that is written and read again has lost at most the byte order mark at its start. -/
theorem eq_of_decodeMarked?_encode (hreturn : '\r' ∉ content)
    (h : decodeMarked? (encode content) = some t) :
    t = [] ∨ t = content ∨ ∃ mark, Text.isBlank mark = false ∧ content = mark :: t := by
  rw [decodeMarked?] at h
  split at h
  · cases h
    exact .inl rfl
  · rw [decode?_encode hreturn, Option.map_some, Option.some.injEq] at h
    cases content with
    | nil => exact .inl h.symm
    | cons c rest =>
        rw [dropMark] at h
        split at h
        · next hmark =>
          have hnumber : c.toNat = 0xFEFF := by simpa using hmark
          exact .inr (.inr ⟨c, by simp [Text.isBlank, hnumber], by rw [h]⟩)
        · exact .inr (.inl h.symm)

end text

end Directory

namespace Command

open Directory (Path)

/-- A file that can be read is replaced if the file beside it can be written, and is read with the
new content then. -/
theorem exists_replaceFile {dir : Directory} {path : Path} {old : ByteArray}
    (hread : dir.read path = .ok old)
    (hwritable : dir.Writable (path.withEnding temporaryEnding)) (content : Text) :
    ∃ written, replaceFile dir path content = .ok written ∧
      written.read path = .ok (Directory.encode content) := by
  obtain ⟨name, hname, hentry⟩ := Directory.read_cases hread
  obtain ⟨first, hfirst⟩ := hwritable (Directory.encode content)
  obtain ⟨temporary, htemporary, hfolder, rfl⟩ := Directory.write_cases hfirst
  have hfolders := Directory.isFolder_put_file dir hfolder (Directory.encode content)
  have hplain : dir.isFolder name = false := by rw [Directory.isFolder, hentry]
  obtain ⟨written, hmove, hwritten⟩ := Directory.exists_move
    (Directory.locate_eq hfolders htemporary) (by rw [Directory.lookup_put, if_pos rfl])
    (Directory.locate_eq hfolders hname) ((hfolders name).trans hplain)
  refine ⟨written, ?_, hwritten⟩
  simp only [replaceFile, hfirst, hmove]
  rfl

end Command
end AsmColumns
