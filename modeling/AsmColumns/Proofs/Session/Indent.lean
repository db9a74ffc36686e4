import AsmColumns.Proofs.Edit.Outcome
import AsmColumns.Proofs.Line.Indentation

/-!
# Indenting a line in a session

The key that indents a line puts spaces up to the line's column in the place of the spaces and tabs
that it starts with.  The line then stands where it belongs, and the key has nothing left to do.
The line is also what it was before, part by part, unless it has a condition.
-/

namespace AsmColumns

open Edit (Buffer indentTo)
open Line (Reindented)

/-! ## Lines at their column -/

namespace Text

theorem takeWhile_isPad_spaces (column : Int) (line : Text) :
    (spaces column ++ line.dropWhile isPad).takeWhile isPad = spaces column := by
  apply takeWhile_append_of_stops
  · intro c hc
    rw [List.eq_of_mem_replicate hc]
    rfl
  · exact stops_dropWhile isPad line

theorem stops_space (line : Text) : Stops (· == ' ') (line.dropWhile isPad) := by
  intro c hc
  have hpad := stops_dropWhile isPad line c hc
  rw [isPad, Bool.or_eq_false_iff] at hpad
  exact hpad.1

end Text

/-- What becomes of a line that is the whole text. -/
theorem Edit.runChecked_indentTo {line : Text} (hline : '\n' ∉ line) {cursor : Nat}
    (hcursor : cursor ≤ line.length) {column : Int} (hcolumn : 0 ≤ column) :
    Buffer.runChecked ⟨line, cursor⟩ (indentTo line column) =
      if indentTo line column = [] then
        .ok ⟨Text.spaces column ++ line.dropWhile Text.isPad, cursor⟩
      else if Text.maxRun < column then .error {}
      else .ok ⟨Text.spaces column ++ line.dropWhile Text.isPad, column⟩ := by
  split
  · next hnone =>
    have hpads := (indentTo_eq_nil_iff hcolumn).mp hnone
    rw [hnone, Buffer.runChecked, ← hpads, List.takeWhile_append_dropWhile]
  · next hsome =>
    have hrun := runChecked_indent (Buffer.at_of_line hline hcursor) hcolumn
    rw [List.take_append_drop, List.append_nil] at hrun
    rw [hrun hsome, Buffer.gapped_of_stops (Text.stops_space line)]
    simp

theorem Settings.reindented {settings : Settings} (hvalid : settings.Valid) (continued : Bool)
    (line : Text) :
    Reindented (settings.read continued line)
      (settings.read continued
        (Text.spaces (settings.page.column (settings.read continued line)) ++
          line.dropWhile Text.isPad)) := by
  obtain ⟨hmargin, hfirst⟩ := column_of_kind settings continued line
  rw [read_eq, read_eq]
  apply Line.reindented_of_lead (Comment.sharp_ofStyle settings.style)
    (Text.allBlank_takeWhile_isPad line) (Text.allBlank_spaces _) List.takeWhile_append_dropWhile
  · intro hkind _
    rw [hmargin (.inl hkind)]
    rfl
  · intro hkind
    rw [hfirst hkind]
    exact spaces_first_ne_nil hvalid

/-! ## The key -/

namespace Session

variable {s : Session}

theorem Coherent.columnFor_eq (h : s.Coherent) (line : Text) (continued : Bool) :
    (s.columnFor (some line) continued).1 =
      s.settings.page.column (s.settings.read continued line) := by
  rw [← h.read_eq, ← h.page_eq]
  rfl

theorem Coherent.columnFor_nonneg (h : s.Coherent) (line : Text) (continued : Bool) :
    0 ≤ (s.columnFor (some line) continued).1 := by
  rw [h.columnFor_eq]
  exact Layout.column_whole_nonneg _ _ _ h.valid.width_pos h.valid.column_nonneg _

theorem Coherent.reindented (h : s.Coherent) (line : Text) (continued : Bool) :
    Reindented (s.settings.read continued line)
      (s.settings.read continued
        (Text.spaces (s.columnFor (some line) continued).1 ++ line.dropWhile Text.isPad)) := by
  rw [h.columnFor_eq]
  exact Settings.reindented h.valid continued line

/-- The line at its column belongs at that column. -/
theorem Coherent.columnFor_indented (h : s.Coherent) (line : Text) (continued : Bool) :
    s.settings.page.column (s.settings.read continued
        (Text.spaces (s.columnFor (some line) continued).1 ++ line.dropWhile Text.isPad)) =
      (s.columnFor (some line) continued).1 := by
  have hmoved := h.reindented line continued
  conv_rhs => rw [h.columnFor_eq]
  apply hmoved.column_eq
  · rw [Settings.read_eq, Line.degraded_readText]
  · rw [Settings.read_eq, Line.degraded_readText]

/-- A line that is indented stands at its column, and indenting it again does nothing. -/
theorem indentLine_again (hs : s.Reachable) {line : Text} (hline : '\n' ∉ line) {cursor : Nat}
    (hcursor : cursor ≤ line.length) (continued : Bool) :
    let column := (s.columnFor (some line) continued).1
    let indented := Text.spaces column ++ line.dropWhile Text.isPad
    let after := (s.indentLine (some line) continued).2
    ∃ actions, (s.indentLine (some line) continued).1 = .ok actions ∧
      Buffer.runChecked ⟨line, cursor⟩ actions =
        (if actions = [] then .ok ⟨indented, cursor⟩
        else if Text.maxRun < column then .error {}
        else .ok ⟨indented, column⟩) ∧
      (after.columnFor (some indented) continued).1 = column ∧
      (after.indentLine (some indented) continued).1 = .ok [] := by
  intro column indented after
  have h := hs.coherent
  have hafter : after.Coherent := h.read (some line) continued
  have hagain : (after.columnFor (some indented) continued).1 = column :=
    (hafter.columnFor_eq indented continued).trans (h.columnFor_indented line continued)
  have hcolumn : 0 ≤ column := h.columnFor_nonneg line continued
  refine ⟨indentTo line column, rfl, Edit.runChecked_indentTo hline hcursor hcolumn, hagain, ?_⟩
  have hnone : indentTo indented column = [] :=
    (Edit.indentTo_eq_nil_iff hcolumn).mpr (Text.takeWhile_isPad_spaces column line)
  simp only [indentLine, hagain, hnone]

/-- An operand that touches a word at the margin: indented, the word is an operation, and the
column is the same. -/
theorem indentLine_again_touching_word :
    let s := ofSettings {}
    let line := "foo,bar".toList
    let indented := "        foo,bar".toList
    let after := (s.indentLine (some line) false).2
    s.Reachable ∧ '\n' ∉ line ∧ 5 ≤ line.length ∧
      ∃ actions, (s.indentLine (some line) false).1 = .ok actions ∧
        Buffer.runChecked ⟨line, 5⟩ actions = .ok ⟨indented, 8⟩ ∧
        (after.columnFor (some indented) false).1 = 8 ∧
        (after.indentLine (some indented) false).1 = .ok [] := by
  intro s line indented after
  have hs : s.Reachable := reachable_ofSettings Settings.valid_default
  have hcolumn : (s.columnFor (some line) false).1 = 8 :=
    (hs.coherent.columnFor_eq line false).trans (by decide +kernel)
  obtain ⟨actions, hactions, hrun, hagain, hnothing⟩ :=
    @indentLine_again s hs line (by decide) 5 (by decide) false
  have hsome : actions ≠ [] := by
    have heq : indentTo line (s.columnFor (some line) false).1 = actions :=
      Except.ok.inj hactions
    rw [← heq, hcolumn]
    decide
  rw [if_neg hsome, hcolumn] at hrun
  rw [hcolumn] at hagain hnothing
  exact ⟨hs, by decide, by decide, actions, hactions, hrun, hagain, hnothing⟩

/-- No text can hold the spaces before a column that is past the longest run of them. -/
theorem indentLine_beyond_longest_run :
    let s := ofSettings { tabStops := [Text.maxRun + 1] }
    s.Reachable ∧
      ∃ actions, (s.indentLine (some "x,".toList) false).1 = .ok actions ∧ actions ≠ [] ∧
        Buffer.runChecked ⟨"x,".toList, 0⟩ actions = .error {} := by
  intro s
  have hs : s.Reachable := reachable_ofSettings ⟨by decide, by decide, by decide, by decide⟩
  have hcolumn : (s.columnFor (some "x,".toList) false).1 = Text.maxRun + 1 :=
    (hs.coherent.columnFor_eq "x,".toList false).trans (by decide +kernel)
  have hsome : indentTo "x,".toList (Text.maxRun + 1) ≠ [] := by decide
  refine ⟨hs, indentTo "x,".toList (s.columnFor (some "x,".toList) false).1, rfl, ?_, ?_⟩
  · rw [hcolumn]
    exact hsome
  · rw [hcolumn]
    exact @Edit.runChecked_indentTo "x,".toList (by decide) 0 (by decide) _ (by decide)

/-! ## The line behind the key -/

/-- A line that is indented has the same kind and the same parts, unless it has a condition, which
is none any more behind blanks. -/
theorem read_indented (hs : s.Reachable) {line : Text} (hline : '\n' ∉ line) {cursor : Nat}
    (hcursor : cursor ≤ line.length) (continued : Bool)
    (hkind : (s.read (some line) continued).1.kind ≠ .unknown) :
    let column := (s.columnFor (some line) continued).1
    let old := (s.read (some line) continued).1
    ∃ actions, (s.indentLine (some line) continued).1 = .ok actions ∧
      ((∃ next, Buffer.runChecked ⟨line, cursor⟩ actions = .ok next) ↔
        actions = [] ∨ column ≤ Text.maxRun) ∧
      ∀ next, Buffer.runChecked ⟨line, cursor⟩ actions = .ok next →
        let new := ((s.indentLine (some line) continued).2.read (some next.text) continued).1
        ((new.kind = old.kind ∧ ∀ part, new.textOf part = old.textOf part) ↔
          old.condition = none) ∧
        (old.condition ≠ none → new.kind = .unknown ∧ ∀ part, new.textOf part = none) := by
  intro column old
  have h := hs.coherent
  have hafter : (s.indentLine (some line) continued).2.Coherent := h.read (some line) continued
  have hrun := Edit.runChecked_indentTo hline hcursor (h.columnFor_nonneg line continued)
  refine ⟨indentTo line column, rfl, ?_, ?_⟩
  · rw [hrun]
    split
    · next hnone => exact iff_of_true ⟨_, rfl⟩ (.inl hnone)
    · next hsome =>
      split
      · next hwide => exact iff_of_false (by simp) (by simp [column, hsome, hwide])
      · next hfits => exact iff_of_true ⟨_, rfl⟩ (.inr (Int.not_lt.mp hfits))
  · intro next hnext
    have htext : next.text = Text.spaces column ++ line.dropWhile Text.isPad := by
      rw [hrun] at hnext
      split at hnext
      · exact congrArg Buffer.text (Except.ok.inj hnext).symm
      · split at hnext
        · cases hnext
        · exact congrArg Buffer.text (Except.ok.inj hnext).symm
    have hmoved := h.reindented line continued
    rw [← htext, ← h.read_eq] at hmoved
    rw [hafter.read_eq]
    exact hmoved.same_iff hkind

/-- A directive behind a tab goes to the margin with its operand and the comment behind it. -/
theorem read_indented_directive :
    let s := ofSettings {}
    let line := "\t.word 1 ; x".toList
    let old := (s.read (some line) false).1
    s.Reachable ∧ '\n' ∉ line ∧ 3 ≤ line.length ∧ old.kind = .directive ∧
      ∃ actions next, (s.indentLine (some line) false).1 = .ok actions ∧
        Buffer.runChecked ⟨line, 3⟩ actions = .ok next ∧
        let new := ((s.indentLine (some line) false).2.read (some next.text) false).1
        new.kind = .directive ∧ ∀ part, new.textOf part = old.textOf part := by
  intro s line old
  have hs : s.Reachable := reachable_ofSettings Settings.valid_default
  have hold : old = Settings.read {} false line := hs.coherent.read_eq line false
  have hkind : old.kind = .directive := by
    rw [hold]
    decide +kernel
  have hnone : old.condition = none := by
    rw [hold]
    decide +kernel
  have hcolumn : (s.columnFor (some line) false).1 = 0 :=
    (hs.coherent.columnFor_eq line false).trans (by decide +kernel)
  obtain ⟨actions, hactions, hruns, hnext⟩ :=
    @read_indented s hs line (by decide) 3 (by decide) false (by rw [hkind]; decide)
  obtain ⟨next, hrun⟩ := hruns.mpr (.inr (by rw [hcolumn]; decide))
  obtain ⟨hnew, hparts⟩ := (hnext next hrun).1.mpr hnone
  exact ⟨hs, by decide, by decide, hkind, actions, next, hactions, hrun, hnew.trans hkind, hparts⟩

/-- A line with a condition is indented, and is no operation any more. -/
theorem condition_lost_by_indenting :
    let s := ofSettings {}
    let line := "(eq) mov r0".toList
    let old := (s.read (some line) false).1
    s.Reachable ∧ old.kind = .operation ∧ old.textOf .operation = some "mov".toList ∧
      ∃ actions next, (s.indentLine (some line) false).1 = .ok actions ∧
        Buffer.runChecked ⟨line, 0⟩ actions = .ok next ∧
        let new := ((s.indentLine (some line) false).2.read (some next.text) false).1
        new.kind = .unknown ∧ new.textOf .operation = none := by
  intro s line old
  have hs : s.Reachable := reachable_ofSettings Settings.valid_default
  have hafter : (s.indentLine (some line) false).2.Coherent := hs.coherent.read (some line) false
  have hold : old = Settings.read {} false line := hs.coherent.read_eq line false
  have hcolumn : (s.columnFor (some line) false).1 = 8 :=
    (hs.coherent.columnFor_eq line false).trans (by decide +kernel)
  have hrun : Buffer.runChecked ⟨line, 0⟩ (indentTo line (s.columnFor (some line) false).1) =
      .ok ⟨"        (eq) mov r0".toList, 8⟩ := by
    rw [hcolumn]
    exact @Edit.runChecked_indentTo line (by decide) 0 (by decide) 8 (by decide)
  refine ⟨hs, ?_, ?_, _, _, rfl, hrun, ?_, ?_⟩
  · rw [hold]
    decide +kernel
  · rw [hold]
    decide +kernel
  · rw [hafter.read_eq]
    decide +kernel
  · rw [hafter.read_eq]
    decide +kernel

end Session
end AsmColumns
