import AsmColumns.Line.Grammar
import AsmColumns.Proofs.Text.Ink

/-!
# Classes of characters

How the classes of characters that a line is read by exclude one another: a blank is no word
character and no label character.
-/

namespace AsmColumns
namespace Text

theorem isBlank_iff {c : Char} : isBlank c = true ↔
    (9 ≤ c.toNat ∧ c.toNat ≤ 13) ∨ (28 ≤ c.toNat ∧ c.toNat ≤ 32) ∨ c.toNat = 0x85 ∨
      c.toNat = 0xA0 ∨ c.toNat = 0x1680 ∨ (0x2000 ≤ c.toNat ∧ c.toNat ≤ 0x200A) ∨
      c.toNat = 0x2028 ∨ c.toNat = 0x2029 ∨ c.toNat = 0x202F ∨ c.toNat = 0x205F ∨
      c.toNat = 0x3000 := by
  simp only [isBlank, Bool.or_eq_true, Bool.and_eq_true, decide_eq_true_eq, beq_iff_eq, or_assoc]

/-- No run of the table of word characters holds a blank. -/
theorem wordRanges_blank : wordRanges.all (fun run =>
    (run.2 < 0x85 || 0x85 < run.1) && (run.2 < 0xA0 || 0xA0 < run.1) &&
      (run.2 < 0x1680 || 0x1680 < run.1) && (run.2 < 0x2000 || 0x200A < run.1) &&
      (run.2 < 0x2028 || 0x2029 < run.1) && (run.2 < 0x202F || 0x202F < run.1) &&
      (run.2 < 0x205F || 0x205F < run.1) && (run.2 < 0x3000 || 0x3000 < run.1)) = true := by
  decide +kernel

theorem le_of_isAlphanum {c : Char} (h : c.isAlphanum = true) : 48 ≤ c.toNat := by
  delta Char.isAlphanum Char.isAlpha Char.isUpper Char.isLower Char.isDigit at h
  simp only [Bool.or_eq_true, Bool.and_eq_true, decide_eq_true_eq, UInt32.le_iff_toNat_le,
    ge_iff_le] at h
  change ((65 ≤ c.toNat ∧ c.toNat ≤ 90) ∨ (97 ≤ c.toNat ∧ c.toNat ≤ 122)) ∨
    (48 ≤ c.toNat ∧ c.toNat ≤ 57) at h
  omega

theorem isWord_of_isBlank {c : Char} (h : isBlank c = true) : isWord c = false := by
  rw [isBlank_iff] at h
  rw [isWord]
  split
  · rw [Bool.or_eq_false_iff]
    constructor
    · rw [Bool.eq_false_iff]
      intro halphanum
      have := le_of_isAlphanum halphanum
      omega
    · rw [beq_eq_false_iff_ne]
      rintro rfl
      revert h
      decide
  · rw [inRanges, List.any_eq_false]
    intro run hrun
    have hblank := List.all_eq_true.mp wordRanges_blank run hrun
    simp only [Bool.and_eq_true, Bool.or_eq_true, decide_eq_true_eq] at hblank ⊢
    omega

theorem isBlank_of_isWord {c : Char} (h : isWord c = true) : isBlank c = false := by
  rw [Bool.eq_false_iff]
  intro hblank
  rw [isWord_of_isBlank hblank] at h
  cases h

end Text

namespace Line

theorem isLabelChar_of_isWord {c : Char} (h : Text.isWord c = true) : isLabelChar c = true := by
  simp [isLabelChar, h]

theorem isBlank_of_isLabelChar {c : Char} (h : isLabelChar c = true) :
    Text.isBlank c = false := by
  simp only [isLabelChar, Bool.or_eq_true, beq_iff_eq] at h
  rcases h with (h | rfl) | rfl
  · exact Text.isBlank_of_isWord h
  · decide
  · decide

end Line
end AsmColumns
