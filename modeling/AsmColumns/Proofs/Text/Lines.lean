import AsmColumns.Proofs.Text.Ink
import AsmColumns.Text.Lines

/-!
# Cutting a text into lines and joining them

A newline cuts the lines of a text in two, so the lines of a text can be computed from both sides
of any newline.  Joining the lines gives the text back, and joining lines without newlines in them
and cutting the result gives the lines back.
-/

namespace AsmColumns
namespace Text

theorem lines_ne_nil (t : Text) : lines t ≠ [] := by
  cases t with
  | nil => simp [lines]
  | cons c rest =>
      rw [lines]
      split
      · simp
      · split <;> simp

theorem lines_of_notMem {t : Text} (h : '\n' ∉ t) : lines t = [t] := by
  induction t with
  | nil => rfl
  | cons c rest ih =>
      simp only [List.mem_cons, not_or] at h
      have hc : (c == '\n') = false := by simpa using Ne.symm h.1
      simp [lines, hc, ih h.2]

theorem lines_append_newline (s t : Text) : lines (s ++ '\n' :: t) = lines s ++ lines t := by
  induction s with
  | nil => simp [lines]
  | cons c s ih =>
      rw [List.cons_append, lines, lines, ih]
      split
      · simp
      · obtain ⟨line, later, hs⟩ := List.exists_cons_of_ne_nil (lines_ne_nil s)
        simp [hs]

theorem length_lines (t : Text) : (lines t).length = t.count '\n' + 1 := by
  induction t with
  | nil => rfl
  | cons c rest ih =>
      obtain ⟨line, later, hrest⟩ := List.exists_cons_of_ne_nil (lines_ne_nil rest)
      rw [hrest] at ih
      by_cases hc : c = '\n'
      · simp [lines, hc, hrest, ← ih]
      · simpa [lines, hc, hrest] using ih

theorem newline_notMem_of_mem_lines {t line : Text} (h : line ∈ lines t) : '\n' ∉ line := by
  induction t generalizing line with
  | nil =>
      simp only [lines, List.mem_singleton] at h
      simp [h]
  | cons c rest ih =>
      obtain ⟨first, later, hrest⟩ := List.exists_cons_of_ne_nil (lines_ne_nil rest)
      by_cases hc : c = '\n'
      · simp only [lines, hc, beq_self_eq_true, if_true, List.mem_cons] at h
        rcases h with rfl | h
        · simp
        · exact ih h
      · simp only [lines, beq_iff_eq, hc, if_false, hrest, List.mem_cons] at h
        rcases h with rfl | h
        · have hfirst : '\n' ∉ first := ih (by simp [hrest])
          simp [hfirst, Ne.symm hc]
        · exact ih (by simp [hrest, h])

theorem unlines_cons {line : Text} {later : List Text} (h : later ≠ []) :
    unlines (line :: later) = line ++ '\n' :: unlines later := by
  obtain ⟨next, rest, rfl⟩ := List.exists_cons_of_ne_nil h
  rfl

theorem unlines_lines (t : Text) : unlines (lines t) = t := by
  induction t with
  | nil => rfl
  | cons c rest ih =>
      obtain ⟨first, later, hrest⟩ := List.exists_cons_of_ne_nil (lines_ne_nil rest)
      by_cases hc : c = '\n'
      · simp only [lines, hc, beq_self_eq_true, if_true]
        rw [unlines_cons (lines_ne_nil rest), ih]
        rfl
      · simp only [lines, beq_iff_eq, hc, if_false, hrest] at ih ⊢
        rw [← ih]
        cases later <;> simp [unlines]

theorem lines_unlines {texts : List Text} (hne : texts ≠ [])
    (h : ∀ line ∈ texts, '\n' ∉ line) : lines (unlines texts) = texts := by
  induction texts with
  | nil => exact absurd rfl hne
  | cons line later ih =>
      have hline : lines line = [line] := lines_of_notMem (h line (by simp))
      by_cases hlater : later = []
      · subst hlater
        exact hline
      · rw [unlines_cons hlater, lines_append_newline, hline,
          ih hlater fun other hother => h other (by simp [hother])]
        rfl

end Text
end AsmColumns
