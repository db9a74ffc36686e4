import AsmColumns.Proofs.Comment.Scan
import AsmColumns.Proofs.Line.Shapes

/-!
# The reading of a line from its marks

The marks of a line give its code, and the code gives its kind and its parts: a front that fits, if
there is one, and no shape at all otherwise.
-/

namespace AsmColumns
namespace Line

open Comment (Convention Scans Spells blanked marked scan lengthToClose?)
open Text (isBlank isPad isWord allBlank)

/-- The reading of a line before its code is sorted. -/
def unsorted (conv : Convention) (continued : Bool) (text : Text) : Reading :=
  { kind := .comment
    text
    comments := (scan conv continued text).spans
    vars := variablesFrom 0 text
    endsOpen := (scan conv continued text).leftOpen }

theorem unsorted_bare (conv : Convention) (continued : Bool) (text : Text) :
    (unsorted conv continued text).Bare :=
  ⟨rfl, rfl, rfl, rfl, rfl⟩

/-- Sorting the code of a line leaves its text and its comments alone. -/
theorem readCode_frame (base : Reading) (code : Text) :
    (readCode base code).text = base.text ∧ (readCode base code).comments = base.comments ∧
      (readCode base code).vars = base.vars ∧ (readCode base code).endsOpen = base.endsOpen ∧
      (readCode base code).degraded = base.degraded := by
  unfold readCode
  split
  · exact ⟨rfl, rfl, rfl, rfl, rfl⟩
  · split
    · exact ⟨rfl, rfl, rfl, rfl, rfl⟩
    · simp only
      split <;> exact ⟨rfl, rfl, rfl, rfl, rfl⟩
    · split
      · exact ⟨rfl, rfl, rfl, rfl, rfl⟩
      · split <;> exact ⟨rfl, rfl, rfl, rfl, rfl⟩

theorem readText_frame (conv : Convention) (continued : Bool) (text : Text) :
    (readText conv continued text).text = text ∧
      (readText conv continued text).comments = (scan conv continued text).spans ∧
      (readText conv continued text).vars = variablesFrom 0 text ∧
      (readText conv continued text).endsOpen = (scan conv continued text).leftOpen ∧
      (readText conv continued text).degraded = false := by
  unfold readText
  simp only
  split
  · exact ⟨rfl, rfl, rfl, rfl, rfl⟩
  · split
    · exact ⟨rfl, rfl, rfl, rfl, rfl⟩
    · exact readCode_frame _ _

@[simp] theorem text_readText (conv : Convention) (continued : Bool) (text : Text) :
    (readText conv continued text).text = text :=
  (readText_frame conv continued text).1

@[simp] theorem comments_readText (conv : Convention) (continued : Bool) (text : Text) :
    (readText conv continued text).comments = (scan conv continued text).spans :=
  (readText_frame conv continued text).2.1

@[simp] theorem vars_readText (conv : Convention) (continued : Bool) (text : Text) :
    (readText conv continued text).vars = variablesFrom 0 text :=
  (readText_frame conv continued text).2.2.1

@[simp] theorem endsOpen_readText (conv : Convention) (continued : Bool) (text : Text) :
    (readText conv continued text).endsOpen = (scan conv continued text).leftOpen :=
  (readText_frame conv continued text).2.2.2.1

@[simp] theorem degraded_readText (conv : Convention) (continued : Bool) (text : Text) :
    (readText conv continued text).degraded = false :=
  (readText_frame conv continued text).2.2.2.2

/-- The marks of a line, as the scan leaves them. -/
structure Marked (conv : Convention) (continued : Bool) (text : Text) (marks : List Bool) :
    Prop where
  scans : Scans conv (.entry conv continued) text marks (scan conv continued text).leftOpen
  spells : Spells 0 marks (scan conv continued text).spans

section marks

variable {conv : Convention} {continued : Bool} {text : Text} {marks : List Bool}
  {kind : Kind} {f : Front} {rest : Text}

theorem exists_marked (conv : Convention) (continued : Bool) (text : Text) :
    ∃ marks, Marked conv continued text marks := by
  obtain ⟨marks, hscans, hspells⟩ := Comment.exists_scans conv continued text
  exact ⟨marks, hscans, hspells⟩

theorem marked_of_scans {leftOpen : Bool}
    (h : Scans conv (.entry conv continued) text marks leftOpen) :
    Marked conv continued text marks ∧ (scan conv continued text).leftOpen = leftOpen := by
  obtain ⟨marks', hmarked⟩ := exists_marked conv continued text
  obtain ⟨rfl, hopen⟩ := hmarked.scans.unique h
  exact ⟨hmarked, hopen⟩

theorem Marked.codeOf_eq (h : Marked conv continued text marks) :
    codeOf (scan conv continued text).spans text = blanked marks text :=
  h.spells.codeOf_eq h.scans.length_marks

theorem allBlank_blanked_replicate (text : Text) :
    allBlank (blanked (List.replicate text.length true) text) = true := by
  rw [Comment.blanked_replicate_true, Text.allBlank_iff]
  intro c hc
  rw [List.eq_of_mem_replicate hc]
  rfl

/-- A line that lies inside a comment has no code. -/
theorem Marked.insideBlock_eq (h : Marked conv continued text marks)
    (hcode : allBlank (blanked marks text) = false) : insideBlock conv continued text = false := by
  rw [Bool.eq_false_iff]
  intro hinside
  simp only [insideBlock, Bool.and_eq_true, Text.occursIn, Bool.not_eq_true',
    Option.isSome_eq_false_iff, Option.isNone_iff_eq_none] at hinside
  have hentry : Comment.Mode.entry conv continued = .inside := by
    simp [Comment.Mode.entry, hinside.1]
  have hnone : lengthToClose? conv text = none := by
    rw [lengthToClose?, hinside.2]
    rfl
  have hscans := h.scans
  rw [hentry] at hscans
  rw [(hscans.unique (.unclosed hnone)).1, allBlank_blanked_replicate] at hcode
  cases hcode

theorem readText_of_code (h : Marked conv continued text marks)
    (hcode : allBlank (blanked marks text) = false) :
    readText conv continued text =
      readCode (unsorted conv continued text) (blanked marks text) := by
  have hcodeOf := h.codeOf_eq
  unfold readText
  simp only [h.insideBlock_eq hcode, hcodeOf, hcode, Bool.and_false]
  rfl

theorem readText_of_fits (h : Marked conv continued text marks)
    (hcode : blanked marks text = f.text ++ rest) (hfits : Fits kind f rest) :
    readText conv continued text =
      f.reading kind (unsorted conv continued text) (f.operand? rest) := by
  have hink : allBlank (blanked marks text) = false := by
    rw [hcode, Text.allBlank_append, hfits.not_allBlank, Bool.false_and]
  rw [readText_of_code h hink, hcode, readCode_of_fits (unsorted_bare ..) hfits]

theorem readText_of_shapeless (h : Marked conv continued text marks)
    (hink : allBlank (blanked marks text) = false) (hcode : Shapeless (blanked marks text)) :
    readText conv continued text = { unsorted conv continued text with kind := .unknown } := by
  have htext : allBlank text = false := by
    rw [Bool.eq_false_iff]
    intro hblank
    rw [Comment.allBlank_blanked marks hblank] at hink
    cases hink
  rw [readText_of_code h hink, readCode_of_shapeless hcode]
  simp [unsorted, htext]

theorem shapeless_of_allBlank {code : Text} (h : allBlank code) : Shapeless code := by
  rcases exists_fits code with ⟨kind, f, rest, rfl, hfits⟩ | hshapeless
  · simp [hfits.not_allBlank] at h
  · exact hshapeless

theorem readText_eq_of_allBlank (h : Marked conv continued text marks)
    (hcode : allBlank (blanked marks text) = true) :
    readText conv continued text =
      if insideBlock conv continued text then unsorted conv continued text
      else if (scan conv continued text).spans = [] then
        { unsorted conv continued text with kind := .blank }
      else
        { unsorted conv continued text with
          isDoc := isDocDepth conv (commentDepth conv text), depth := commentDepth conv text } := by
  have hcodeOf := h.codeOf_eq
  unfold readText
  simp only [hcodeOf, hcode, Bool.and_true]
  split
  · rfl
  · cases hspans : (scan conv continued text).spans with
    | cons span spans => simp [unsorted, hspans]
    | nil =>
        have htext : blanked marks text = text := by
          rw [← hcodeOf, hspans, Comment.codeOf_nil]
        rw [htext] at hcode ⊢
        simp [readCode_of_shapeless (shapeless_of_allBlank hcode), hcode, unsorted, hspans]

/-- A line without code is a comment, or it is blank. -/
theorem readText_of_allBlank (h : Marked conv continued text marks)
    (hcode : allBlank (blanked marks text) = true) :
    (readText conv continued text).Bare ∧
      ((readText conv continued text).kind = .comment ∨
        ((readText conv continued text).kind = .blank ∧ allBlank text = true)) := by
  rw [readText_eq_of_allBlank h hcode]
  split
  · exact ⟨unsorted_bare .., .inl rfl⟩
  · split
    · next hspans =>
      have htext : blanked marks text = text := by
        rw [← h.codeOf_eq, hspans, Comment.codeOf_nil]
      rw [htext] at hcode
      exact ⟨⟨rfl, rfl, rfl, rfl, rfl⟩, .inr ⟨rfl, hcode⟩⟩
    · exact ⟨⟨rfl, rfl, rfl, rfl, rfl⟩, .inl rfl⟩

/-- What a line can be read as. -/
theorem readText_cases (conv : Convention) (continued : Bool) (text : Text) :
    ∃ marks, Marked conv continued text marks ∧
      ((allBlank (blanked marks text) = true) ∨
        (allBlank (blanked marks text) = false ∧ Shapeless (blanked marks text)) ∨
        ∃ kind f rest, blanked marks text = f.text ++ rest ∧ Fits kind f rest) := by
  obtain ⟨marks, hmarked⟩ := exists_marked conv continued text
  refine ⟨marks, hmarked, ?_⟩
  cases hblank : allBlank (blanked marks text) with
  | true => exact .inl rfl
  | false =>
      rcases exists_fits (blanked marks text) with hfits | hshapeless
      · exact .inr (.inr hfits)
      · exact .inr (.inl ⟨rfl, hshapeless⟩)

theorem allBlank_of_kind
    (hkind : (readText conv continued text).kind = .blank) : allBlank text = true := by
  obtain ⟨marks, h, hblank | ⟨hink, hshapeless⟩ | ⟨kind, f, rest, hcode, hfits⟩⟩ :=
    readText_cases conv continued text
  · rcases (readText_of_allBlank h hblank).2 with hother | ⟨_, htext⟩
    · simp [hother] at hkind
    · exact htext
  · simp [readText_of_shapeless h hink hshapeless] at hkind
  · rw [readText_of_fits h hcode hfits] at hkind
    obtain rfl : kind = .blank := hkind
    rcases hfits.kind_eq with hother | hother | hother <;> cases hother

theorem operation_isSome (continued : Bool) (text : Text)
    (hkind : (readText conv continued text).kind = .operation) :
    (readText conv continued text).operation.isSome = true := by
  obtain ⟨marks, h, hblank | ⟨hink, hshapeless⟩ | ⟨kind, f, rest, hcode, hfits⟩⟩ :=
    readText_cases conv continued text
  · rcases (readText_of_allBlank h hblank).2 with hother | ⟨hother, _⟩ <;>
      simp [hother] at hkind
  · simp [readText_of_shapeless h hink hshapeless] at hkind
  · rw [readText_of_fits h hcode hfits] at hkind ⊢
    obtain rfl : kind = .operation := hkind
    obtain ⟨hne, hdot⟩ := hfits.head?_dot_iff (by decide)
    have hnodot : f.head.head? ≠ some '.' := by simpa using hdot
    simp [Front.reading, hne, hnodot]

theorem read_of_opening (hopening : conv.opening.isSome = true) (continued : Bool) (text : Text) :
    read conv continued (some text) = readText conv continued text := by
  simp [read, Option.isNone_eq_false_iff.mpr hopening]

theorem read_eq_readText (hsharp : conv.Sharp) (continued : Bool) (text : Text) :
    read conv continued (some text) = readText conv continued text :=
  read_of_opening hsharp.opening_isSome continued text

end marks

end Line
end AsmColumns
