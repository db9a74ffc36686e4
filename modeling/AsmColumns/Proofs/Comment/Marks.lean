import AsmColumns.Line.Read
import AsmColumns.Proofs.Text.Ink

/-!
# Marking the comments of a line

The regions of a line are kept as spans, and spans move when anything before them moves.  A list of
marks, one for each character and set if the character is comment, says the same without offsets.
The code of a line, the text of its comments and the start of the first comment are read off the
marks.
-/

namespace AsmColumns
namespace Comment

/-- The characters that are marked. -/
def marked : List Bool → Text → Text
  | true :: marks, c :: text => c :: marked marks text
  | false :: marks, _ :: text => marked marks text
  | _, _ => []

/-- The text with every marked character replaced by a space. -/
def blanked : List Bool → Text → Text
  | true :: marks, _ :: text => ' ' :: blanked marks text
  | false :: marks, c :: text => c :: blanked marks text
  | _, text => text

@[simp] theorem marked_nil (text : Text) : marked [] text = [] := by
  cases text <;> rfl

@[simp] theorem blanked_nil (text : Text) : blanked [] text = text := by
  cases text <;> rfl

theorem marked_sublist (marks : List Bool) (text : Text) : (marked marks text).Sublist text := by
  induction text generalizing marks with
  | nil =>
      cases marks with
      | nil => exact List.Sublist.refl _
      | cons mark marks => cases mark <;> exact List.Sublist.refl _
  | cons c text ih =>
      cases marks with
      | nil => exact List.nil_sublist _
      | cons mark marks =>
          cases mark with
          | true => exact (ih marks).cons_cons c
          | false => exact (ih marks).cons c

theorem marked_append {front marks : List Bool} {s t : Text}
    (hlength : front.length = s.length) :
    marked (front ++ marks) (s ++ t) = marked front s ++ marked marks t := by
  induction front generalizing s with
  | nil =>
      have hs : s = [] := List.eq_nil_of_length_eq_zero hlength.symm
      simp [hs]
  | cons mark front ih =>
      cases s with
      | nil => simp at hlength
      | cons c s =>
          have hrest : front.length = s.length := by simpa using hlength
          cases mark <;> simp [marked, ih hrest]

theorem blanked_append {front marks : List Bool} {s t : Text}
    (hlength : front.length = s.length) :
    blanked (front ++ marks) (s ++ t) = blanked front s ++ blanked marks t := by
  induction front generalizing s with
  | nil =>
      have hs : s = [] := List.eq_nil_of_length_eq_zero hlength.symm
      simp [hs]
  | cons mark front ih =>
      cases s with
      | nil => simp at hlength
      | cons c s =>
          have hrest : front.length = s.length := by simpa using hlength
          cases mark <;> simp [blanked, ih hrest]

@[simp] theorem marked_replicate_false (n : Nat) (t : Text) :
    marked (List.replicate n false) t = [] := by
  induction n generalizing t with
  | zero => simp
  | succ n ih => cases t <;> simp [List.replicate_succ, marked, ih]

@[simp] theorem blanked_replicate_false (n : Nat) (t : Text) :
    blanked (List.replicate n false) t = t := by
  induction n generalizing t with
  | zero => simp
  | succ n ih => cases t <;> simp [List.replicate_succ, blanked, ih]

@[simp] theorem marked_replicate_true (t : Text) :
    marked (List.replicate t.length true) t = t := by
  induction t with
  | nil => rfl
  | cons c t ih => simpa [List.replicate_succ, marked] using ih

/-- A text that starts with a region of comment. -/
theorem ink_marked_region (region : Text) (marks : List Bool) (t : Text) :
    Text.ink (marked (List.replicate region.length true ++ marks) (region ++ t)) =
      Text.ink region ++ Text.ink (marked marks t) := by
  rw [marked_append List.length_replicate, marked_replicate_true, Text.ink_append]

@[simp] theorem blanked_replicate_true (t : Text) :
    blanked (List.replicate t.length true) t = List.replicate t.length ' ' := by
  induction t with
  | nil => rfl
  | cons c t ih => simpa [List.replicate_succ, blanked] using ih

/-- The code of a text from its first mark on. -/
def behind : List Bool → Text → Text
  | true :: marks, text => blanked (true :: marks) text
  | false :: marks, text => behind marks text.tail
  | [], _ => []

theorem behind_lead (lead : Text) (marks : List Bool) (t : Text) :
    behind (List.replicate lead.length false ++ marks) (lead ++ t) = behind marks t := by
  induction lead with
  | nil => rfl
  | cons c lead ih => exact ih

theorem behind_of_head {marks : List Bool} (h : marks.head? = some true) (t : Text) :
    behind marks t = blanked marks t := by
  obtain ⟨marks, rfl⟩ := List.head?_eq_some_iff.mp h
  rfl

theorem allBlank_blanked (marks : List Bool) {t : Text} (h : Text.allBlank t = true) :
    Text.allBlank (blanked marks t) = true := by
  induction t generalizing marks with
  | nil =>
      cases marks with
      | nil => rfl
      | cons mark marks => cases mark <;> rfl
  | cons c t ih =>
      rw [Text.allBlank_cons, Bool.and_eq_true] at h
      cases marks with
      | nil => simp [h.1, h.2]
      | cons mark marks => cases mark <;> simp [blanked, h.1, ih marks h.2]

theorem head?_blanked {marks : List Bool} {t : Text}
    (h : t.head?.all Text.isBlank = true ∨ marks.head? = some true) :
    (blanked marks t).head?.all Text.isBlank = true := by
  cases t with
  | nil => cases marks <;> simp [blanked]
  | cons c t =>
      cases marks with
      | nil => simpa using h
      | cons mark marks =>
          cases mark with
          | true => rfl
          | false => simpa [blanked] using h

/-- Ink that is no code is comment. -/
theorem ink_marked_of_quiet {marks : List Bool} {t : Text}
    (h : Text.allBlank (blanked marks t) = true) : Text.ink (marked marks t) = Text.ink t := by
  induction t generalizing marks with
  | nil => rw [List.sublist_nil.mp (marked_sublist marks [])]
  | cons c t ih =>
      cases marks with
      | nil =>
          rw [blanked_nil] at h
          simp [Text.ink_of_allBlank h]
      | cons mark marks =>
          cases mark with
          | true =>
              have ht : Text.ink (marked marks t) = Text.ink t := ih (by simpa [blanked] using h)
              simp [marked, Text.ink_cons, ht]
          | false =>
              obtain ⟨hc, ht⟩ :
                  Text.isBlank c = true ∧ Text.allBlank (blanked marks t) = true := by
                simpa [blanked] using h
              simp [marked, hc, ih ht]

theorem length_blanked (marks : List Bool) (t : Text) : (blanked marks t).length = t.length := by
  induction t generalizing marks with
  | nil =>
      cases marks with
      | nil => rfl
      | cons mark marks => cases mark <;> rfl
  | cons c t ih =>
      cases marks with
      | nil => rfl
      | cons mark marks => cases mark <;> simp [blanked, ih marks]

theorem allBlank_behind (marks : List Bool) {t : Text} (h : Text.allBlank t = true) :
    Text.allBlank (behind marks t) = true := by
  induction marks generalizing t with
  | nil => rfl
  | cons mark marks ih =>
      cases mark with
      | true => exact allBlank_blanked _ h
      | false =>
          cases t with
          | nil => exact ih h
          | cons c t =>
              rw [Text.allBlank_cons, Bool.and_eq_true] at h
              exact ih h.2

theorem allBlank_behind_trail {marks : List Bool} {t z : Text} (hlength : marks.length = t.length)
    (hz : Text.allBlank z = true) (later : List Bool) :
    Text.allBlank (behind (marks ++ later) (t ++ z)) = Text.allBlank (behind marks t) := by
  induction marks generalizing t with
  | nil =>
      obtain rfl : t = [] := List.eq_nil_of_length_eq_zero hlength.symm
      exact allBlank_behind later hz
  | cons mark marks ih =>
      cases t with
      | nil => cases hlength
      | cons c t =>
          cases mark with
          | true =>
              have happend : blanked (true :: marks ++ later) (c :: t ++ z) =
                  blanked (true :: marks) (c :: t) ++ blanked later z := blanked_append hlength
              exact (congrArg Text.allBlank happend).trans
                (by rw [Text.allBlank_append, allBlank_blanked later hz, Bool.and_true]; rfl)
          | false => exact ih (by simpa using hlength)

theorem blankOut_eq {covered : Nat → Bool} {marks : List Bool} {t : Text}
    (hlength : marks.length = t.length)
    (hmarks : ∀ i, covered i = marks.getD i false) :
    Text.blankOut covered t = blanked marks t := by
  induction t generalizing covered marks with
  | nil =>
      have hnil : marks = [] := List.eq_nil_of_length_eq_zero hlength
      simp [hnil, Text.blankOut]
  | cons c t ih =>
      cases marks with
      | nil => simp at hlength
      | cons mark marks =>
          have hrest := @ih (fun i => covered (i + 1)) marks (by simpa using hlength)
            fun i => by simpa using hmarks (i + 1)
          have hhead : covered 0 = mark := by simpa using hmarks 0
          unfold Text.blankOut at hrest ⊢
          rw [List.mapIdx_cons, hrest, hhead]
          cases mark <;> rfl

theorem codeOf_nil (t : Text) : Line.codeOf [] t = t := by
  refine (blankOut_eq ?_ ?_).trans (blanked_replicate_false t.length t)
  · simp
  · intro i
    rw [List.getD_eq_getElem?_getD, List.getElem?_replicate]
    split <;> rfl

/-! ## Regions spell out marks -/

/-- The regions, from an offset on, that a list of marks stands for. -/
inductive Spells : Nat → List Bool → List Span → Prop where
  | nil (offset : Nat) : Spells offset [] []
  | bare {offset : Nat} {marks : List Bool} {spans : List Span} :
      Spells (offset + 1) marks spans → Spells offset (false :: marks) spans
  | region {offset length : Nat} {marks : List Bool} {spans : List Span} :
      0 < length → Spells (offset + length) marks spans →
        Spells offset (List.replicate length true ++ marks) (⟨offset, length⟩ :: spans)

namespace Spells

variable {offset : Nat} {marks : List Bool} {spans : List Span}

theorem covers_of_lt (h : Spells offset marks spans) {i : Nat} (hi : i < offset) :
    Span.covers spans i = false := by
  induction h with
  | nil => rfl
  | bare _ ih => exact ih (by omega)
  | region _ _ ih =>
      have hrest := ih (by omega)
      simp only [Span.covers, List.any_cons, Bool.or_eq_false_iff] at hrest ⊢
      refine ⟨?_, hrest⟩
      simp only [Span.contains, Bool.and_eq_false_iff, decide_eq_false_iff_not]
      omega

theorem covers_eq (h : Spells offset marks spans) (i : Nat) :
    Span.covers spans (offset + i) = marks.getD i false := by
  induction h generalizing i with
  | nil => rfl
  | @bare offset marks spans hrest ih =>
      cases i with
      | zero => exact hrest.covers_of_lt (by omega)
      | succ i =>
          rw [show offset + (i + 1) = offset + 1 + i by omega, ih]
          rfl
  | @region offset length marks spans hlength hrest ih =>
      have hhere : Span.contains ⟨offset, length⟩ (offset + i) = decide (i < length) := by
        simp [Span.contains, Span.stop]
      rw [Span.covers, List.any_cons, hhere, List.getD_eq_getElem?_getD]
      by_cases hi : i < length
      · rw [List.getElem?_append_left (by simpa using hi)]
        simp [hi]
      · have hcovers := ih (i - length)
        rw [show offset + length + (i - length) = offset + i by omega,
          List.getD_eq_getElem?_getD] at hcovers
        rw [List.getElem?_append_right (by simpa using hi), List.length_replicate, ← hcovers]
        simp [hi, Span.covers]

theorem codeOf_eq {t : Text}
    (h : Spells 0 marks spans)
    (hlength : marks.length = t.length) :
    Line.codeOf spans t = blanked marks t := by
  refine blankOut_eq hlength fun i => ?_
  simpa using h.covers_eq i

theorem eq_nil_of_bare {n : Nat} (h : Spells offset (List.replicate n false) spans) :
    spans = [] := by
  induction n generalizing offset with
  | zero =>
      generalize hmarks : List.replicate 0 false = marks at h
      cases h with
      | nil => rfl
      | bare => simp at hmarks
      | @region _ length _ _ hlength =>
          cases length <;> simp [List.replicate_succ] at hmarks hlength
  | succ n ih =>
      generalize hmarks : List.replicate (n + 1) false = marks at h
      cases h with
      | nil => rfl
      | bare hrest =>
          have hmarks := List.cons.inj (List.replicate_succ ▸ hmarks)
          exact ih (hmarks.2 ▸ hrest)
      | @region _ length _ _ hlength =>
          cases length <;> simp [List.replicate_succ] at hmarks hlength

theorem head_start {n : Nat}
    (h : Spells offset (List.replicate n false ++ true :: marks) spans) :
    spans.head?.map Span.start = some (offset + n) := by
  induction n generalizing offset with
  | zero =>
      generalize hmarks : List.replicate 0 false ++ true :: marks = all at h
      cases h with
      | nil => simp at hmarks
      | bare => simp at hmarks
      | region => rfl
  | succ n ih =>
      generalize hmarks : List.replicate (n + 1) false ++ true :: marks = all at h
      cases h with
      | nil => simp at hmarks
      | bare hrest =>
          rw [List.replicate_succ, List.cons_append, List.cons.injEq] at hmarks
          rw [ih (hmarks.2 ▸ hrest), Nat.add_assoc, Nat.add_comm 1]
      | @region _ length _ _ hlength =>
          cases length <;> simp [List.replicate_succ] at hmarks hlength

theorem flatMap_of {front t : Text}
    (h : Spells offset marks spans)
    (hfront : front.length = offset)
    (hlength : marks.length = t.length) :
    spans.flatMap (·.of (front ++ t)) = marked marks t := by
  induction h generalizing front t with
  | nil => simp
  | bare _ ih =>
      cases t with
      | nil => simp at hlength
      | cons c t =>
          have hrest := @ih (front ++ [c]) t (by simp [hfront])
            (by simpa using hlength)
          simpa [marked] using hrest
  | @region offset length marks spans _ _ ih =>
      have hle : length ≤ t.length := by
        rw [List.length_append, List.length_replicate] at hlength
        omega
      obtain ⟨region, rest, rfl, hregion⟩ :
          ∃ region rest, t = region ++ rest ∧ region.length = length :=
        ⟨t.take length, t.drop length, (List.take_append_drop _ _).symm, List.length_take_of_le hle⟩
      have hrest := @ih (front ++ region) rest (by simp [hfront, hregion])
        (by simpa [hregion] using hlength)
      rw [List.flatMap_cons, marked_append (by simp [hregion]), ← hrest, ← hregion,
        marked_replicate_true]
      simp [Span.of, Span.stop, Text.slice, hfront]

end Spells

end Comment
end AsmColumns
