import AsmColumns.Proofs.Layout.Column
import AsmColumns.Proofs.Layout.Cut

/-!
# Laying out a line on a whole page

On a page with every part in place a line is laid out, or it asks for a run of spaces that is too
long for any text.  The second happens only if one of the columns of the page lies beyond the
longest run.
-/

namespace AsmColumns

open Comment (Convention)
open Line (Reading)

namespace Layout

/-- Whether a line set in columns asks for a run of spaces that is too long. -/
def isSetTooWide (stops : TabStops) (column commentColumn : Int) (r : Reading) : Bool :=
  ((head? r).isSome && decide (Text.maxRun < headColumn stops column r)) ||
    (r.commentStart?.isSome && decide ((codeFields stops column r).length < commentColumn) &&
      decide (Text.maxRun < commentColumn))

/-- Whether the layout of a line asks for a run of spaces that is too long. -/
def isTooWide (conv : Convention) (stops : TabStops) (column commentColumn : Int)
    (r : Reading) : Bool :=
  match r.kind with
  | .blank => false
  | .comment => conv.mark.isPrefixOf r.text.trimLeft && decide (Text.maxRun < column)
  | _ =>
      if isRigid r then decide (Text.maxRun < column)
      else isSetTooWide stops column commentColumn r

section whole

variable {conv : Convention} {stops : TabStops} {commentColumn : Int} {r : Reading}

theorem checkWidth_eq {column : Int} (hcolumn : 0 ≤ column) :
    checkWidth column = if Text.maxRun < column then .error .tooWide else .ok () := by
  have hlow : ¬ column < -Text.maxRun - 1 := by
    have hrun : 0 ≤ Text.maxRun := by decide
    omega
  simp [checkWidth, hlow]

theorem stopsBehind_whole (hwidth : 1 ≤ stops.width) (length : Nat) :
    (Page.whole conv stops commentColumn).stopsBehind length = .ok stops := by
  have hzero : (stops.width == 0) = false := by
    rw [beq_eq_false_iff_ne]
    omega
  simp [Page.stopsBehind, Page.whole, TabStops.nextStop?, hzero]

theorem headColumn_nonneg {column : Int} (hwidth : 1 ≤ stops.width) (hcolumn : 0 ≤ column) :
    0 ≤ headColumn stops column r := by
  unfold headColumn
  split
  · have := TabStops.lt_nextStop hwidth (margin r).length
    omega
  · exact hcolumn

/-- The tab stops matter only to a head that follows the margin. -/
theorem headColumn_of_not_followsMargin (h : followsMargin r = false) (stops stops' : TabStops)
    (column : Int) : headColumn stops column r = headColumn stops' column r := by
  simp [headColumn, h]

theorem checkWidth_bind {column : Int} (hcolumn : 0 ≤ column) (p : Prop) [Decidable p]
    (later : Except Fault Text) :
    (if p then checkWidth column >>= fun _ => later else later) =
      if p ∧ Text.maxRun < column then .error .tooWide else later := by
  rw [checkWidth_eq hcolumn]
  by_cases hp : p <;> by_cases hwide : Text.maxRun < column <;>
    simp [hp, hwide, bind, Except.bind]

theorem ok_bind {α : Type} (x : α) (later : α → Except Fault Text) :
    (Except.ok x >>= later) = later x := rfl

theorem setFields_whole (hwidth : 1 ≤ stops.width) (hcomment : 0 ≤ commentColumn)
    (hpart : r.kind = .operation → r.operation.isSome) :
    (Page.whole conv stops commentColumn).setFields r =
      let column := (Page.whole conv stops commentColumn).column r
      if isSetTooWide stops column commentColumn r then .error .tooWide
      else .ok (Text.trimRight (fields stops column commentColumn r)) := by
  have hcolumn := column_whole_nonneg conv stops commentColumn hwidth hcomment r
  have hmissing : (r.label.isNone && r.kind == .operation && r.operation.isNone) = false := by
    by_cases hkind : r.kind = .operation
    · simp [hpart hkind]
    · simp [hkind]
  have hstop : ∀ length,
      (Page.whole conv stops commentColumn).commentStopBehind length = .ok commentColumn :=
    fun _ => rfl
  unfold Page.setFields
  generalize (Page.whole conv stops commentColumn).column r = column at *
  have hguards : (if (head? r).isSome = true ∧ Text.maxRun < headColumn stops column r then
        .error .tooWide
      else if r.commentStart?.isNone = true then pure (codeFields stops column r).trimRight
      else if ((codeFields stops column r).length : Int) < commentColumn ∧
          Text.maxRun < commentColumn then .error .tooWide
      else pure (fields stops column commentColumn r).trimRight : Except Fault Text) =
      if isSetTooWide stops column commentColumn r then .error .tooWide
      else .ok (Text.trimRight (fields stops column commentColumn r)) := by
    unfold isSetTooWide
    by_cases hwide : (head? r).isSome = true ∧ Text.maxRun < headColumn stops column r
    · simp [hwide]
    · have hnot : ((head? r).isSome && decide (Text.maxRun < headColumn stops column r)) =
          false := by
        simpa using hwide
      rw [if_neg hwide, hnot, Bool.false_or]
      cases hstart : r.commentStart? with
      | none => simp [fields, hstart, pure, Except.pure]
      | some start => simp [pure, Except.pure]
  cases hfollows : followsMargin r with
  | true =>
      simp only [hmissing, Bool.false_eq_true, if_false, if_true, stopsBehind_whole hwidth, ok_bind,
        hstop, checkWidth_bind (headColumn_nonneg hwidth hcolumn), checkWidth_bind hcomment]
      exact hguards
  | false =>
      have hhead := headColumn_of_not_followsMargin hfollows default stops column
      have hcode : codeFields default column r = codeFields stops column r := by
        simp only [codeFields, hhead]
      have hfields : fields default column commentColumn r =
          fields stops column commentColumn r := by
        simp only [fields, hcode]
      simp only [hmissing, Bool.false_eq_true, if_false, ok_bind, hstop, hhead, hcode, hfields,
        checkWidth_bind (headColumn_nonneg hwidth hcolumn), checkWidth_bind hcomment]
      exact hguards

theorem line_whole (hopening : conv.opening.isSome) (hwidth : 1 ≤ stops.width)
    (hcomment : 0 ≤ commentColumn) (hpart : r.kind = .operation → r.operation.isSome) :
    (Page.whole conv stops commentColumn).line r =
      let column := (Page.whole conv stops commentColumn).column r
      if isTooWide conv stops column commentColumn r then .error .tooWide
      else .ok (line conv stops column commentColumn r) := by
  have hcolumn := column_whole_nonneg conv stops commentColumn hwidth hcomment r
  have hset : (Page.whole conv stops commentColumn).setFields r = _ :=
    setFields_whole hwidth hcomment hpart
  unfold Page.line isTooWide line
  cases hkind : r.kind with
  | blank => rfl
  | comment =>
      have hconv : (Page.whole conv stops commentColumn).convention = some conv := rfl
      have hnone : conv.opening.isNone = false := by simp [hopening]
      simp only [hconv, hnone, Bool.false_eq_true, if_false, checkWidth_bind hcolumn]
      simp [pure, Except.pure]
  | label | directive | operation | unknown =>
      cases hr : isRigid r with
      | true =>
          have hrigid := checkWidth_bind hcolumn True (pure (Text.trimRight
            (Text.spaces ((Page.whole conv stops commentColumn).column r) ++ r.text.trim)))
          simpa [pure, Except.pure] using hrigid
      | false => simp [hset]

/-- A column that a line of the given length can be set in is too far out. -/
def Overflows (stops : TabStops) (commentColumn : Int) (length : Nat) : Prop :=
  Text.maxRun < commentColumn ∨ ∃ n ≤ length, Text.maxRun < stops.nextStop n

theorem overflows_of_column {length : Nat}
    (h : Text.maxRun < (Page.whole conv stops commentColumn).column r) :
    Overflows stops commentColumn length := by
  have hzero : ¬ Text.maxRun < 0 := by decide
  rw [column_whole] at h
  split at h
  · exact absurd h hzero
  · split at h
    · exact absurd h hzero
    · exact absurd h hzero
    · split at h
      · exact absurd h hzero
      · split at h
        · exact .inl h
        · exact .inr ⟨0, Nat.zero_le _, h⟩
    · exact .inr ⟨0, Nat.zero_le _, h⟩

theorem length_margin_le (r : Reading) : (margin r).length ≤ r.text.length := by
  have htrim : ∀ t : Text, (Text.trim t).length ≤ t.length := by
    intro t
    have hlength := congrArg List.length (Text.lead_trim_tail t)
    simp only [List.length_append] at hlength
    omega
  unfold margin
  split
  · simp only [Span.of, Text.slice, List.length_take, List.length_drop]
    omega
  · split
    · refine (htrim _).trans ?_
      rw [List.length_take]
      omega
    · exact Nat.zero_le _

theorem overflows_of_isTooWide
    (h : isTooWide conv stops ((Page.whole conv stops commentColumn).column r) commentColumn r) :
    Overflows stops commentColumn r.text.length := by
  have hset : isSetTooWide stops ((Page.whole conv stops commentColumn).column r)
      commentColumn r = true → Overflows stops commentColumn r.text.length := by
    intro hset
    simp only [isSetTooWide, Bool.or_eq_true, Bool.and_eq_true, decide_eq_true_eq] at hset
    rcases hset with ⟨_, hwide⟩ | ⟨_, hwide⟩
    · unfold headColumn at hwide
      split at hwide
      · exact .inr ⟨_, length_margin_le r, hwide⟩
      · exact overflows_of_column hwide
    · exact .inl hwide
  unfold isTooWide at h
  split at h
  · cases h
  · rw [Bool.and_eq_true, decide_eq_true_eq] at h
    exact overflows_of_column h.2
  · split at h
    · exact overflows_of_column (decide_eq_true_eq.mp h)
    · exact hset h

end whole

end Layout
end AsmColumns
