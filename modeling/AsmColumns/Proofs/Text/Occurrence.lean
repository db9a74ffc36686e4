import AsmColumns.Proofs.Text.Ink

/-!
# Occurrences of a delimiter

A delimiter holds no blank, so a blank splits the search for it: an occurrence lies on one side of
the blank or on the other, and does not depend on how many blanks there are.
-/

namespace AsmColumns
namespace Text

variable {piece s t : Text} {c : Char}

theorem prefix_append_blank_iff
    (hpiece : ∀ x ∈ piece, isBlank x = false)
    (hblank : isBlank c = true) :
    piece <+: s ++ c :: t ↔ piece <+: s := by
  constructor
  · intro h
    rcases List.prefix_or_prefix_of_prefix h (List.prefix_append s (c :: t)) with hle | hle
    · exact hle
    · obtain ⟨more, rfl⟩ := hle
      cases more with
      | nil => simp
      | cons x more =>
          have hx : x = c := by
            rw [List.prefix_append_right_inj] at h
            exact (List.cons_prefix_cons.mp h).1
          have := hpiece x (by simp)
          simp [hx, hblank] at this
  · intro h
    exact h.trans (List.prefix_append s (c :: t))

theorem isPrefixOf_append_blank
    (hpiece : ∀ x ∈ piece, isBlank x = false)
    (hblank : isBlank c = true) :
    piece.isPrefixOf (s ++ c :: t) = piece.isPrefixOf s := by
  rw [Bool.eq_iff_iff, List.isPrefixOf_iff_prefix, List.isPrefixOf_iff_prefix]
  exact prefix_append_blank_iff hpiece hblank

theorem exists_of_offsetOf? {i : Nat} (h : offsetOf? piece t = some i) :
    ∃ front rest, t = front ++ (piece ++ rest) ∧ front.length = i := by
  induction t generalizing i with
  | nil =>
      unfold offsetOf? at h
      split at h
      · rename_i hempty
        refine ⟨[], [], ?_, by simpa using h⟩
        simpa using hempty.symm
      · cases h
  | cons c t ih =>
      unfold offsetOf? at h
      split at h
      · rename_i hhere
        obtain ⟨rest, hrest⟩ := List.isPrefixOf_iff_prefix.mp hhere
        exact ⟨[], rest, hrest.symm, by simpa using h⟩
      · obtain ⟨j, hj, rfl⟩ := Option.map_eq_some_iff.mp h
        obtain ⟨front, rest, rfl, hfront⟩ := ih hj
        exact ⟨c :: front, rest, rfl, by simp [hfront]⟩

theorem occursIn_iff : occursIn piece t = true ↔ piece <:+: t := by
  unfold occursIn
  induction t with
  | nil =>
      unfold offsetOf?
      cases piece <;> simp
  | cons c t ih =>
      unfold offsetOf?
      rw [List.infix_cons_iff, ← ih, ← List.isPrefixOf_iff_prefix]
      split
      · next hhere => simp [hhere]
      · next hhere => simp [hhere]

theorem offsetOf?_append_of_some {i : Nat} (h : offsetOf? piece s = some i) (t : Text) :
    offsetOf? piece (s ++ t) = some i := by
  induction s generalizing i with
  | nil =>
      unfold offsetOf? at h
      split at h
      · rename_i hempty
        have hnil : piece = [] := by simpa using hempty
        subst hnil
        cases t <;> simpa [offsetOf?] using h
      · cases h
  | cons c s ih =>
      unfold offsetOf? at h
      rw [List.cons_append, offsetOf?]
      split at h
      · rename_i hhere
        have hmore : piece.isPrefixOf (c :: (s ++ t)) = true := by
          rw [List.isPrefixOf_iff_prefix] at hhere ⊢
          exact hhere.trans (List.prefix_append (c :: s) t)
        rw [if_pos hmore, h]
      · rename_i hhere
        obtain ⟨j, hj, rfl⟩ := Option.map_eq_some_iff.mp h
        have hlength : piece.length ≤ (c :: s).length := by
          obtain ⟨front, rest, hs, _⟩ := exists_of_offsetOf? hj
          simp only [hs, List.length_cons, List.length_append]
          omega
        have hmore : ¬ piece.isPrefixOf (c :: (s ++ t)) = true := by
          intro hmore
          refine hhere ?_
          rw [List.isPrefixOf_iff_prefix] at hmore ⊢
          exact List.prefix_of_prefix_length_le hmore (List.prefix_append (c :: s) t) hlength
        rw [if_neg hmore, ih hj]
        rfl

theorem offsetOf?_of_append {i : Nat}
    (h : offsetOf? piece (s ++ t) = some i)
    (hi : i + piece.length ≤ s.length) :
    offsetOf? piece s = some i := by
  cases hs : offsetOf? piece s with
  | some j =>
      rw [← h]
      exact (offsetOf?_append_of_some hs t).symm
  | none =>
      exfalso
      induction s generalizing i with
      | nil =>
          rw [List.length_nil] at hi
          have hnil : piece = [] := List.eq_nil_of_length_eq_zero (by omega)
          simp [offsetOf?, hnil] at hs
      | cons c s ih =>
          rw [List.cons_append, offsetOf?] at h
          rw [offsetOf?] at hs
          split at hs
          · cases hs
          · rename_i hhere
            have hmore : ¬ piece.isPrefixOf (c :: (s ++ t)) = true := by
              intro hmore
              refine hhere ?_
              rw [List.isPrefixOf_iff_prefix] at hmore ⊢
              exact List.prefix_of_prefix_length_le hmore (List.prefix_append (c :: s) t)
                (by omega)
            rw [if_neg hmore] at h
            obtain ⟨j, hj, rfl⟩ := Option.map_eq_some_iff.mp h
            refine ih hj ?_ (by simpa using hs)
            simp only [List.length_cons] at hi
            omega

/-- A blank splits the search. -/
theorem offsetOf?_append_blank
    (hne : piece ≠ [])
    (hpiece : ∀ x ∈ piece, isBlank x = false)
    (hblank : isBlank c = true) :
    offsetOf? piece (s ++ c :: t) =
      (offsetOf? piece s).or ((offsetOf? piece t).map (s.length + 1 + ·)) := by
  induction s with
  | nil =>
      have hhere : piece.isPrefixOf (c :: t) = false := by
        rw [← List.nil_append (c :: t), isPrefixOf_append_blank hpiece hblank]
        cases piece with
        | nil => exact absurd rfl hne
        | cons x piece => rfl
      simp [offsetOf?, hhere, hne, Nat.add_comm]
  | cons x s ih =>
      rw [List.cons_append, offsetOf?, offsetOf?, ← List.cons_append,
        isPrefixOf_append_blank hpiece hblank, ih]
      split
      · rfl
      · cases offsetOf? piece s with
        | some i => rfl
        | none =>
            simp only [Option.none_or, Option.map_none, Option.map_map]
            congr 1
            funext i
            simp only [Function.comp_apply, List.length_cons]
            omega

theorem offsetOf?_lead {lead : Text}
    (hne : piece ≠ [])
    (hpiece : ∀ x ∈ piece, isBlank x = false)
    (hlead : allBlank lead) :
    offsetOf? piece (lead ++ t) = (offsetOf? piece t).map (lead.length + ·) := by
  induction lead with
  | nil => simp
  | cons c lead ih =>
      rw [allBlank_cons, Bool.and_eq_true] at hlead
      have hsplit := offsetOf?_append_blank (s := []) (t := lead ++ t) hne hpiece hlead.1
      rw [List.nil_append] at hsplit
      rw [List.cons_append, hsplit, ih hlead.2]
      simp only [offsetOf?, List.isEmpty_iff, hne, if_false, Option.none_or, Option.map_map]
      congr 1
      funext i
      simp only [Function.comp_apply, List.length_nil, List.length_cons]
      omega

theorem offsetOf?_tail {z : Text}
    (hne : piece ≠ [])
    (hpiece : ∀ x ∈ piece, isBlank x = false)
    (hz : allBlank z) :
    offsetOf? piece (t ++ z) = offsetOf? piece t := by
  cases z with
  | nil => simp
  | cons c z =>
      rw [allBlank_cons, Bool.and_eq_true] at hz
      have hnone : offsetOf? piece z = none := by
        have hlead := offsetOf?_lead (t := []) hne hpiece hz.2
        simpa [offsetOf?, hne] using hlead
      rw [offsetOf?_append_blank hne hpiece hz.1, hnone]
      simp

end Text
end AsmColumns
