import AsmColumns.Proofs.Edit.Outcome

/-!
# Edits are local

A buffer may be a stretch of whole lines of a longer text.  Where a line starts and ends is looked
up in the whole text before every action, and a newline that was inserted changes it for the actions
behind it.  Actions that keep to the line of the cursor never see what is above or below the
stretch: they do to the longer text what they do to the stretch alone, and are stopped by a run of
spaces in the one if and only if they are stopped in the other.
-/

namespace AsmColumns
namespace Edit
namespace Buffer

variable {buffer next other : Buffer} {above left right below upper lower : Text}
  {action : Action} {actions : List Action}

/-- The buffer with text above and below it, and the cursor at the same character. -/
def between (buffer : Buffer) (upper lower : Text) : Buffer :=
  ⟨upper ++ buffer.text ++ lower, upper.length + buffer.cursor⟩

/-- A deletion lies in the line of the cursor, and a move goes to no column left of it. -/
def KeepsToLine (buffer : Buffer) : Action → Prop
  | .deleteRange start stop => 0 ≤ start ∧ start ≤ stop ∧ stop ≤ buffer.line.length
  | .moveToColumn column => 0 ≤ column
  | _ => True

/-- Every action keeps to the line that holds the cursor when its turn comes.  Nothing is asked of
actions behind one that is stopped. -/
def KeepsToLines (buffer : Buffer) : List Action → Prop
  | [] => True
  | action :: rest =>
      buffer.KeepsToLine action ∧
        match buffer.actChecked action with
        | .error _ => True
        | .ok next => next.KeepsToLines rest

instance (buffer : Buffer) (action : Action) : Decidable (buffer.KeepsToLine action) :=
  match action with
  | .deleteRange _ _ => inferInstanceAs (Decidable (_ ∧ _ ∧ _))
  | .moveToColumn _ => inferInstanceAs (Decidable (_ ≤ _))
  | .insertChar _ | .insertText _ | .insertNewline | .delegate _ => .isTrue trivial

instance KeepsToLines.decidable (buffer : Buffer) :
    (actions : List Action) → Decidable (buffer.KeepsToLines actions)
  | [] => .isTrue trivial
  | action :: rest =>
      have : Decidable (match buffer.actChecked action with
          | .error _ => True
          | .ok next => next.KeepsToLines rest) :=
        match buffer.actChecked action with
        | .error _ => .isTrue trivial
        | .ok next => KeepsToLines.decidable next rest
      inferInstanceAs (Decidable (_ ∧ _))

/-! ## One line in a longer text -/

theorem EndsLine.append (hupper : EndsLine upper) (habove : EndsLine above) :
    EndsLine (upper ++ above) := by
  rcases habove with rfl | ⟨t, rfl⟩
  · rwa [List.append_nil]
  · exact .inr ⟨upper ++ t, by rw [List.append_assoc]⟩

theorem StartsBreak.append (hbelow : StartsBreak below) (hlower : StartsBreak lower) :
    StartsBreak (below ++ lower) := by
  rcases hbelow with rfl | ⟨t, rfl⟩
  · exact hlower
  · exact .inr ⟨t ++ lower, rfl⟩

section between

variable (hupper : EndsLine upper) (hlower : StartsBreak lower)

include hupper hlower in
/-- The line of the cursor is the same in the longer text. -/
theorem At.between (h : buffer.At above left right below) :
    (buffer.between upper lower).At (upper ++ above) left right (below ++ lower) where
  text_eq := by simp [Buffer.between, h.text_eq]
  cursor_eq := by
    have hcursor := h.cursor_eq
    simp only [Buffer.between, List.length_append]
    omega
  above_ends := hupper.append h.above_ends
  left_line := h.left_line
  right_line := h.right_line
  below_starts := h.below_starts.append hlower

theorem At.eq_between (h : next.At above left right below)
    (hother : other.At (upper ++ above) left right (below ++ lower)) :
    other = next.between upper lower := by
  rw [hother.buffer_eq, h.buffer_eq, Buffer.between, Buffer.mk.injEq]
  constructor
  · simp
  · simp only [List.length_append]
    omega

include hupper hlower

theorem At.insert_between (h : buffer.At above left right below) (piece : Text) :
    (buffer.between upper lower).insert piece = (buffer.insert piece).between upper lower ∧
      (buffer.insert piece).InRange := by
  rw [h.insert_eq, (h.between hupper hlower).insert_eq, Buffer.between, Buffer.mk.injEq]
  refine ⟨⟨by simp, ?_⟩, ?_⟩
  · simp only [List.length_append]
    omega
  · simp only [InRange, List.length_append]
    omega

/-- One action that keeps to its line. -/
theorem At.act_between (h : buffer.At above left right below) (hkeeps : buffer.KeepsToLine action) :
    (buffer.between upper lower).act action = (buffer.act action).between upper lower ∧
      (buffer.act action).InRange := by
  have hwithin := h.between hupper hlower
  cases action with
  | insertChar piece => exact h.insert_between hupper hlower piece
  | insertText piece => exact h.insert_between hupper hlower piece
  | insertNewline => exact h.insert_between hupper hlower ['\n']
  | delegate command => exact ⟨rfl, h.inRange⟩
  | deleteRange start stop =>
      obtain ⟨hstart, hstop, hline⟩ := hkeeps
      obtain ⟨start, rfl⟩ := Int.eq_ofNat_of_zero_le hstart
      obtain ⟨stop, rfl⟩ := Int.eq_ofNat_of_zero_le (Int.le_trans hstart hstop)
      rw [h.line_eq] at hline
      have hdelete := h.delete start stop (by omega) (by omega)
      have hdelete' := hwithin.delete start stop (by omega) (by omega)
      exact ⟨hdelete.eq_between hdelete', hdelete.inRange⟩
  | moveToColumn column =>
      obtain ⟨column, rfl⟩ := Int.eq_ofNat_of_zero_le (show 0 ≤ column from hkeeps)
      by_cases hback : column ≤ left.length
      · have hmove := h.moveLeft hback
        exact ⟨hmove.eq_between (hwithin.moveLeft hback), hmove.inRange⟩
      · have hcolumn : (column : Int) = left.length + (column - left.length : Nat) := by omega
        have hmove := h.moveOver (column - left.length)
        have hmove' := hwithin.moveOver (column - left.length)
        rw [← hcolumn] at hmove hmove'
        exact ⟨hmove.eq_between hmove', hmove.inRange⟩

/-- One action that keeps to its line, where a run of spaces may stop it. -/
theorem At.actChecked_between (h : buffer.At above left right below)
    (hkeeps : buffer.KeepsToLine action) :
    (buffer.between upper lower).actChecked action =
      (buffer.actChecked action).map (·.between upper lower) := by
  have hwithin := h.between hupper hlower
  have hact := (h.act_between hupper hlower hkeeps).1
  cases action with
  | moveToColumn column =>
      -- The column of the cursor and the spaces behind it are those of its line.
      have hcolumn : (buffer.between upper lower).column = buffer.column := by
        rw [h.column_eq, hwithin.column_eq]
      have hreusable : ∀ gap, (buffer.between upper lower).reusable gap = buffer.reusable gap := by
        intro gap
        rw [reusable, reusable, h.lineRest_eq, hwithin.lineRest_eq]
      simp only [actChecked, hcolumn, hreusable, hact]
      split <;> rfl
  | insertChar | insertText | insertNewline | deleteRange | delegate =>
      simp only [actChecked, hact]
      rfl

end between

/-! ## Runs of actions -/

theorem inRange_of_actChecked (hrange : buffer.InRange) (hkeeps : buffer.KeepsToLine action)
    (hnext : buffer.actChecked action = .ok next) : next.InRange := by
  obtain ⟨above, left, right, below, hat⟩ := hrange.exists_at
  rw [← act_of_actChecked hnext]
  exact (hat.act_between (.inl rfl) (.inl rfl) hkeeps).2

theorem keepsToLines_of_actChecked (hkeeps : buffer.KeepsToLines (action :: actions))
    (hnext : buffer.actChecked action = .ok next) : next.KeepsToLines actions := by
  have hrest := hkeeps.2
  rwa [hnext] at hrest

/-- A run of actions that keep to their lines. -/
theorem runChecked_between (hupper : EndsLine upper) (hlower : StartsBreak lower)
    (hrange : buffer.InRange) (hkeeps : buffer.KeepsToLines actions) :
    (buffer.between upper lower).runChecked actions =
      (buffer.runChecked actions).map (·.between upper lower) := by
  induction actions generalizing buffer with
  | nil => rfl
  | cons action rest ih =>
      obtain ⟨above, left, right, below, hat⟩ := hrange.exists_at
      rw [runChecked, runChecked, hat.actChecked_between hupper hlower hkeeps.1]
      cases hnext : buffer.actChecked action with
      | error e => rfl
      | ok next =>
          exact ih (inRange_of_actChecked hrange hkeeps.1 hnext)
            (keepsToLines_of_actChecked hkeeps hnext)

theorem inRange_of_runChecked {last : Buffer} (hrange : buffer.InRange)
    (hkeeps : buffer.KeepsToLines actions) (hlast : buffer.runChecked actions = .ok last) :
    last.InRange := by
  induction actions generalizing buffer with
  | nil => exact Except.ok.inj hlast ▸ hrange
  | cons action rest ih =>
      rw [runChecked] at hlast
      split at hlast
      · cases hlast
      · next hnext =>
        exact ih (inRange_of_actChecked hrange hkeeps.1 hnext)
          (keepsToLines_of_actChecked hkeeps hnext) hlast

/-- Only a column past the longest run of spaces can stop a move. -/
theorem exists_actChecked (hrange : buffer.InRange)
    (hwidth : ∀ column, action = .moveToColumn column → column ≤ Text.maxRun) :
    ∃ next, buffer.actChecked action = .ok next := by
  obtain ⟨above, left, right, below, hat⟩ := hrange.exists_at
  cases action with
  | moveToColumn column =>
      have hcolumn := hwidth column rfl
      have hfits : ¬ Text.maxRun < column - buffer.column -
          buffer.reusable (column - buffer.column) := by
        rw [hat.column_eq]
        omega
      exact ⟨_, if_neg hfits⟩
  | insertChar | insertText | insertNewline | deleteRange | delegate => exact ⟨_, rfl⟩

theorem exists_runChecked (hrange : buffer.InRange) (hkeeps : buffer.KeepsToLines actions)
    (hwidth : ∀ column, .moveToColumn column ∈ actions → column ≤ Text.maxRun) :
    ∃ last, buffer.runChecked actions = .ok last := by
  induction actions generalizing buffer with
  | nil => exact ⟨buffer, rfl⟩
  | cons action rest ih =>
      have hfirst : ∀ column, action = .moveToColumn column → column ≤ Text.maxRun := by
        rintro column rfl
        exact hwidth column List.mem_cons_self
      obtain ⟨next, hnext⟩ := exists_actChecked hrange hfirst
      rw [runChecked_cons hnext]
      exact ih (inRange_of_actChecked hrange hkeeps.1 hnext)
        (keepsToLines_of_actChecked hkeeps hnext)
        fun column hmem => hwidth column (List.mem_cons_of_mem _ hmem)

/-- Actions that keep to the line of the cursor are local to a stretch of whole lines: with lines
above and below it they leave those alone and end in the stretch as they do without them.  They
leave the cursor inside the stretch, and go through if no column is past the longest run of
spaces. -/
theorem runChecked_surrounded {upper text lower : Text} (hupper : EndsLine upper)
    (hlower : StartsBreak lower) {cursor : Int} (hcursor : 0 ≤ cursor ∧ cursor ≤ text.length)
    {actions : List Action} (hkeeps : KeepsToLines ⟨text, cursor⟩ actions) :
    runChecked ⟨upper ++ text ++ lower, upper.length + cursor⟩ actions =
        (runChecked ⟨text, cursor⟩ actions).map
          (fun last => ⟨upper ++ last.text ++ lower, upper.length + last.cursor⟩) ∧
      (∀ last, runChecked ⟨text, cursor⟩ actions = .ok last →
        0 ≤ last.cursor ∧ last.cursor ≤ last.text.length) ∧
      ((∀ column, .moveToColumn column ∈ actions → column ≤ Text.maxRun) →
        ∃ last, runChecked ⟨text, cursor⟩ actions = .ok last) := by
  have hrange : InRange ⟨text, cursor⟩ := hcursor
  refine ⟨runChecked_between hupper hlower hrange hkeeps, ?_, exists_runChecked hrange hkeeps⟩
  intro last hlast
  exact inRange_of_runChecked hrange hkeeps hlast

/-- A line in the middle of a text is broken, and the new line is edited behind that: two of its
spaces are reused, and one of them is deleted again. -/
theorem runChecked_surrounded_broken_line :
    let actions : List Action :=
      [.insertNewline, .moveToColumn 2, .deleteRange 0 1, .insertText "q".toList]
    KeepsToLines ⟨"ab  c\nd".toList, 2⟩ actions ∧
      runChecked ⟨"ab  c\nd".toList, 2⟩ actions = .ok ⟨"ab\n qc\nd".toList, 5⟩ ∧
      runChecked ⟨"x\nab  c\nd\ny".toList, 4⟩ actions = .ok ⟨"x\nab\n qc\nd\ny".toList, 7⟩ := by
  intro actions
  have hupper : EndsLine "x\n".toList := .inr ⟨['x'], rfl⟩
  have hlower : StartsBreak "\ny".toList := .inr ⟨['y'], rfl⟩
  have hkeeps : KeepsToLines ⟨"ab  c\nd".toList, 2⟩ actions := by decide
  have halone : runChecked ⟨"ab  c\nd".toList, 2⟩ actions = .ok ⟨"ab\n qc\nd".toList, 5⟩ := by
    rfl
  have hrun := (runChecked_surrounded hupper hlower (by decide) hkeeps).1
  rw [halone] at hrun
  exact ⟨hkeeps, halone, hrun⟩

end Buffer
end Edit
end AsmColumns
