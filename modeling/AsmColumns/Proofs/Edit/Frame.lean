import AsmColumns.Edit.Action
import AsmColumns.Proofs.Text.Lines

/-!
# A buffer seen from its cursor

A cursor inside a buffer cuts the text into four: the lines above, the line of the cursor up to the
cursor and behind it, and the lines below.  Every action that keeps to the line of the cursor
changes only the two parts of that line, and each action is described here once by what it does to
them.  The lines above and below are never touched.  An action that is not refused for its width
does what it always does.
-/

namespace AsmColumns
namespace Edit
namespace Buffer

/-- The text is empty or ends with a newline, so that a line starts behind it. -/
def EndsLine (text : Text) : Prop :=
  text = [] ∨ ∃ t, text = t ++ ['\n']

/-- The text is empty or starts with a newline, so that a line ends before it. -/
def StartsBreak (text : Text) : Prop :=
  text = [] ∨ ∃ t, text = '\n' :: t

/-- The lines above the cursor, its line in two parts, and the lines below. -/
structure At (buffer : Buffer) (above left right below : Text) : Prop where
  text_eq : buffer.text = above ++ (left ++ (right ++ below))
  cursor_eq : buffer.cursor = above.length + left.length
  above_ends : EndsLine above
  left_line : '\n' ∉ left
  right_line : '\n' ∉ right
  below_starts : StartsBreak below

/-- The cursor stands in the text or right behind it. -/
def InRange (buffer : Buffer) : Prop :=
  0 ≤ buffer.cursor ∧ buffer.cursor ≤ buffer.text.length

instance (buffer : Buffer) : Decidable buffer.InRange :=
  inferInstanceAs (Decidable (_ ∧ _))

theorem offsetAt_natCast {text : Text} {n : Nat} (h : n ≤ text.length) :
    offsetAt text n = n := by
  have hn : ¬((n : Int) < 0) := by omega
  simp only [offsetAt, hn, if_false, Int.toNat_natCast]
  omega

theorem takeWhile_notNewline {s t : Text} (hs : '\n' ∉ s) (ht : StartsBreak t) :
    (s ++ t).takeWhile (· != '\n') = s := by
  apply Text.takeWhile_append_of_stops
  · intro c hc
    simp only [bne_iff_ne, ne_eq]
    rintro rfl
    exact hs hc
  · rcases ht with rfl | ⟨t, rfl⟩ <;> simp

theorem takeTail_notNewline {s t : Text} (hs : EndsLine s) (ht : '\n' ∉ t) :
    Text.takeTail (· != '\n') (s ++ t) = t := by
  have hreverse : StartsBreak s.reverse := by
    rcases hs with rfl | ⟨u, rfl⟩
    · exact .inl rfl
    · exact .inr ⟨u.reverse, by simp⟩
  rw [Text.takeTail, List.reverse_append,
    takeWhile_notNewline (by simpa using ht) hreverse, List.reverse_reverse]

namespace At

variable {buffer : Buffer} {above left right below : Text}

theorem offset_eq (h : buffer.At above left right below) :
    offsetAt buffer.text buffer.cursor = above.length + left.length := by
  have hle : above.length + left.length ≤ buffer.text.length := by
    rw [h.text_eq]
    simp only [List.length_append]
    omega
  rw [h.cursor_eq, ← Int.natCast_add, offsetAt_natCast hle]

theorem lineStart_eq (h : buffer.At above left right below) :
    lineStart buffer.text (offsetAt buffer.text buffer.cursor) = above.length := by
  have htake :
      buffer.text.take (above.length + left.length) = above ++ left := by
    rw [h.text_eq, ← List.append_assoc]
    exact List.take_left' (by simp)
  rw [h.offset_eq, lineStart, htake, takeTail_notNewline h.above_ends h.left_line]
  omega

theorem column_eq (h : buffer.At above left right below) :
    buffer.column = left.length := by
  rw [column, h.lineStart_eq, h.cursor_eq]
  omega

theorem lineRest_eq (h : buffer.At above left right below) :
    lineRest buffer.text (offsetAt buffer.text buffer.cursor) = right := by
  have hdrop :
      buffer.text.drop (above.length + left.length) = right ++ below := by
    rw [h.text_eq, ← List.append_assoc]
    exact List.drop_left' (by simp)
  rw [h.offset_eq, lineRest, hdrop, takeWhile_notNewline h.right_line h.below_starts]

theorem line_eq (h : buffer.At above left right below) :
    buffer.line = left ++ right := by
  rw [line, h.lineStart_eq, h.text_eq, List.drop_left, ← List.append_assoc]
  exact takeWhile_notNewline (by simp [h.left_line, h.right_line]) h.below_starts

theorem inRange (h : buffer.At above left right below) : buffer.InRange := by
  have hlength := congrArg List.length h.text_eq
  simp only [List.length_append] at hlength
  have hcursor := h.cursor_eq
  exact ⟨by omega, by omega⟩

/-- The parts of the line of the cursor are free to change. -/
theorem replace (h : buffer.At above left right below) {left' right' : Text}
    (hleft : '\n' ∉ left') (hright : '\n' ∉ right') :
    At ⟨above ++ (left' ++ (right' ++ below)), above.length + left'.length⟩
      above left' right' below :=
  ⟨rfl, rfl, h.above_ends, hleft, hright, h.below_starts⟩

/-! ## Actions -/

theorem insert_eq (h : buffer.At above left right below) (piece : Text) :
    buffer.insert piece =
      ⟨above ++ (left ++ piece ++ (right ++ below)),
        above.length + (left ++ piece).length⟩ := by
  have htext : buffer.text = above ++ left ++ (right ++ below) := by
    rw [h.text_eq, List.append_assoc]
  have hlength : above.length + left.length = (above ++ left).length := by simp
  rw [insert, h.offset_eq, h.cursor_eq, htext, hlength, List.take_left, List.drop_left]
  simp [Int.add_assoc]

theorem insert (h : buffer.At above left right below) (piece : Text) (hpiece : '\n' ∉ piece) :
    (buffer.insert piece).At above (left ++ piece) right below := by
  rw [h.insert_eq]
  exact h.replace (by simp [h.left_line, hpiece]) h.right_line

theorem insertNewline (h : buffer.At above left right below) :
    (buffer.insert ['\n']).At (above ++ (left ++ ['\n'])) [] right below := by
  rw [h.insert_eq]
  refine ⟨by simp, by simp, .inr ⟨above ++ left, by simp⟩, by simp, h.right_line, h.below_starts⟩

/-- The cursor after a deletion in its line. -/
def cursorAfter (column start stop : Nat) : Nat :=
  if stop ≤ column then column - (stop - start) else if start < column then start else column

theorem cursorAfter_le {column start stop length : Nat}
    (hstart : start ≤ stop) (hstop : stop ≤ length) (hcolumn : column ≤ length) :
    cursorAfter column start stop ≤ length - (stop - start) := by
  unfold cursorAfter
  split
  · omega
  · split <;> omega

theorem cursorAfter_cast {margin column start stop : Nat} (hstart : start ≤ stop) :
    (if (margin : Int) + stop ≤ margin + column then
        (margin : Int) + column - (margin + stop - (margin + start))
      else if (margin : Int) + start < margin + column then (margin : Int) + start
      else margin + column) =
      margin + (cursorAfter column start stop : Nat) := by
  unfold cursorAfter
  by_cases hstop : stop ≤ column
  · rw [if_pos (by omega), if_pos hstop]
    omega
  · rw [if_neg (by omega), if_neg hstop]
    by_cases hinside : start < column
    · rw [if_pos (by omega), if_pos hinside]
    · rw [if_neg (by omega), if_neg hinside]

/-- A deletion inside the line of the cursor takes the characters out of that line. -/
theorem delete (h : buffer.At above left right below) (start stop : Nat)
    (hstart : start ≤ stop) (hstop : stop ≤ (left ++ right).length) :
    let rest := (left ++ right).take start ++ (left ++ right).drop stop
    let column := cursorAfter left.length start stop
    (buffer.delete start stop).At above (rest.take column) (rest.drop column) below := by
  intro rest column
  have htext : buffer.text = above ++ ((left ++ right) ++ below) := by
    rw [h.text_eq, List.append_assoc]
  have hrest : '\n' ∉ rest := by
    have hline : '\n' ∉ left ++ right := by simp [h.left_line, h.right_line]
    intro hmem
    rcases List.mem_append.mp hmem with hmem | hmem
    · exact hline (List.mem_of_mem_take hmem)
    · exact hline (List.mem_of_mem_drop hmem)
  have hcolumn : column ≤ rest.length := by
    have := cursorAfter_le hstart hstop (by simp : left.length ≤ (left ++ right).length)
    simp only [rest, List.length_append, List.length_take, List.length_drop]
    simp only [List.length_append] at this hstop
    omega
  have hoffset : ∀ n : Nat, n ≤ (left ++ right).length →
      offsetAt buffer.text ((above.length : Int) + (n : Int)) = above.length + n := by
    intro n hn
    rw [← Int.natCast_add]
    apply offsetAt_natCast
    rw [htext, List.length_append, List.length_append]
    omega
  have htake : buffer.text.take (above.length + start) = above ++ (left ++ right).take start := by
    rw [htext, List.take_length_add_append, List.take_append_of_le_length (by omega)]
  have hdrop : buffer.text.drop (above.length + stop) = (left ++ right).drop stop ++ below := by
    rw [htext, List.drop_length_add_append, List.drop_append_of_le_length (by omega)]
  have hbuffer : buffer.delete start stop =
      ⟨above ++ (rest.take column ++ (rest.drop column ++ below)),
        above.length + (rest.take column).length⟩ := by
    have hcursor := h.cursor_eq
    rw [Buffer.delete, h.lineStart_eq, hoffset start (by omega), hoffset stop hstop, htake, hdrop]
    simp only [Buffer.mk.injEq]
    refine ⟨?_, ?_⟩
    · rw [← List.append_assoc (rest.take column), List.take_append_drop]
      simp [rest]
    · rw [List.length_take, Nat.min_eq_left hcolumn]
      rw [hcursor]
      exact cursorAfter_cast hstart
  rw [hbuffer]
  exact h.replace (fun hmem => hrest (List.mem_of_mem_take hmem))
    (fun hmem => hrest (List.mem_of_mem_drop hmem))

/-- A deletion before the cursor shifts the cursor with the text. -/
theorem deleteBefore {kept gone rest : Text} {start stop : Int}
    (h : buffer.At above (kept ++ (gone ++ rest)) right below)
    (hstart : start = kept.length) (hstop : stop = kept.length + gone.length) :
    (buffer.delete start stop).At above (kept ++ rest) right below := by
  have hstop' : stop = (kept.length + gone.length : Nat) := by omega
  have hdelete := h.delete kept.length (kept.length + gone.length)
    (by omega) (by simp only [List.length_append]; omega)
  have hrest : (kept ++ (gone ++ rest) ++ right).take kept.length ++
      (kept ++ (gone ++ rest) ++ right).drop (kept.length + gone.length) =
      (kept ++ rest) ++ right := by
    rw [List.append_assoc, List.take_left, List.drop_length_add_append, List.append_assoc,
      List.drop_left, List.append_assoc]
  have hcolumn : cursorAfter (kept ++ (gone ++ rest)).length kept.length
      (kept.length + gone.length) = (kept ++ rest).length := by
    rw [cursorAfter, if_pos (by simp only [List.length_append]; omega)]
    simp only [List.length_append]
    omega
  simp only [hrest, hcolumn, List.take_left, List.drop_left] at hdelete
  rw [hstart, hstop']
  exact hdelete

/-- A deletion right behind a cursor at the margin leaves the cursor where it is. -/
theorem deleteBehind {gone rest : Text} (h : buffer.At above [] (gone ++ rest) below) :
    (buffer.delete 0 gone.length).At above [] rest below := by
  have hdelete := h.delete 0 gone.length (by omega) (by simp)
  simpa [cursorAfter] using hdelete

/-- The spaces at the cursor that a move over `gap` columns passes over. -/
theorem reusable_eq (h : buffer.At above left right below) (gap : Nat) :
    buffer.reusable gap = min gap (right.takeWhile (· == ' ')).length := by
  rw [reusable, h.lineRest_eq, Int.toNat_natCast]

/-- A move to the right puts spaces before the cursor, the first of them taken from behind it. -/
theorem moveRight (h : buffer.At above left right below) {gap : Nat} (hgap : 0 < gap) :
    let reused := min gap (right.takeWhile (· == ' ')).length
    (buffer.moveTo (left.length + gap)).At
      above (left ++ Text.spaces gap) (right.drop reused) below := by
  intro reused
  have hreused : reused ≤ right.length :=
    (Nat.min_le_right ..).trans (List.takeWhile_prefix _).length_le
  have hspaces : right.take reused = Text.spaces reused :=
    Text.take_eq_spaces (Nat.min_le_right ..)
  have hoffset :
      offsetAt buffer.text (buffer.cursor + reused) = above.length + left.length + reused := by
    rw [h.cursor_eq, ← Int.natCast_add, ← Int.natCast_add]
    apply offsetAt_natCast
    rw [h.text_eq]
    simp only [List.length_append]
    omega
  have htext : buffer.text = above ++ left ++ (right ++ below) := by
    rw [h.text_eq, List.append_assoc]
  have htake : buffer.text.take (above.length + left.length + reused) =
      above ++ left ++ Text.spaces reused := by
    rw [htext, ← List.length_append, List.take_length_add_append,
      List.take_append_of_le_length hreused, hspaces]
  have hdrop : buffer.text.drop (above.length + left.length + reused) =
      right.drop reused ++ below := by
    rw [htext, ← List.length_append, List.drop_length_add_append,
      List.drop_append_of_le_length hreused]
  have hjoin : Text.spaces reused ++ Text.spaces ((gap : Int) - reused) = Text.spaces gap := by
    rw [Text.spaces, Text.spaces, Text.spaces, List.replicate_append_replicate]
    congr 1
    omega
  have hbuffer : buffer.moveTo (left.length + gap) =
      ⟨above ++ (left ++ Text.spaces gap ++ (right.drop reused ++ below)),
        above.length + (left ++ Text.spaces gap).length⟩ := by
    have hmove : (left.length : Int) + gap - buffer.column = gap := by
      rw [h.column_eq]
      omega
    rw [moveTo, hmove, if_pos (by omega), h.reusable_eq]
    simp only [Buffer.mk.injEq]
    refine ⟨?_, ?_⟩
    · rw [hoffset, htake, hdrop, ← hjoin]
      simp [reused]
    · rw [h.cursor_eq, List.length_append, Text.length_spaces]
      omega
  rw [hbuffer]
  exact h.replace (by simp [h.left_line, Text.newline_notMem_spaces])
    (fun hmem => h.right_line (List.mem_of_mem_drop hmem))

/-- A move to the left moves only the cursor. -/
theorem moveLeft (h : buffer.At above left right below) {column : Nat}
    (hcolumn : column ≤ left.length) :
    (buffer.moveTo column).At above (left.take column) (left.drop column ++ right) below := by
  have hbuffer : buffer.moveTo column =
      ⟨above ++ (left.take column ++ (left.drop column ++ right ++ below)),
        above.length + (left.take column).length⟩ := by
    have hgap : ¬(0 < (column : Int) - buffer.column) := by
      rw [h.column_eq]
      omega
    rw [moveTo, if_neg hgap, h.lineStart_eq, h.text_eq]
    simp only [Buffer.mk.injEq]
    refine ⟨?_, ?_⟩
    · rw [List.append_assoc (left.drop column), ← List.append_assoc (left.take column),
        List.take_append_drop]
    · rw [List.length_take, Nat.min_eq_left hcolumn]
  rw [hbuffer]
  refine h.replace (fun hmem => h.left_line (List.mem_of_mem_take hmem)) ?_
  intro hmem
  rcases List.mem_append.mp hmem with hmem | hmem
  · exact h.left_line (List.mem_of_mem_drop hmem)
  · exact h.right_line hmem

/-- A move that does not go back leaves the ink on both sides of the cursor alone. -/
theorem moveForward (h : buffer.At above left right below) {column : Int}
    (hcolumn : left.length ≤ column) :
    ∃ right', Text.ink right' = Text.ink right ∧
      (buffer.moveTo column).At
        above (left ++ Text.spaces (column - left.length)) right' below := by
  obtain ⟨gap, hgap⟩ := Int.eq_ofNat_of_zero_le (by omega : 0 ≤ column - left.length)
  rw [hgap]
  by_cases hzero : gap = 0
  · have hstay : column = (left.length : Nat) := by omega
    have hmove := h.moveLeft (le_refl left.length)
    rw [List.take_length, List.drop_length, List.nil_append] at hmove
    refine ⟨right, rfl, ?_⟩
    rw [hstay]
    simpa [hzero] using hmove
  · have hforward : column = left.length + gap := by omega
    have hmove := h.moveRight (Nat.pos_of_ne_zero hzero)
    rw [← hforward] at hmove
    refine ⟨_, ?_, hmove⟩
    set reused := min gap (right.takeWhile (· == ' ')).length
    have hblank : Text.allBlank (right.take reused) := by
      rw [Text.take_eq_spaces (Nat.min_le_right ..)]
      exact Text.allBlank_spaces _
    conv_rhs => rw [← List.take_append_drop reused right, Text.ink_append,
      Text.ink_of_allBlank hblank, List.nil_append]

end At

/-- A cursor inside the text has a line, with lines above and below it. -/
theorem InRange.exists_at {buffer : Buffer} (h : buffer.InRange) :
    ∃ above left right below, buffer.At above left right below := by
  obtain ⟨text, cursor⟩ := buffer
  obtain ⟨n, rfl⟩ := Int.eq_ofNat_of_zero_le h.1
  have hn : n ≤ text.length := by simpa [InRange] using h.2
  refine ⟨Text.dropTail (· != '\n') (text.take n), Text.takeTail (· != '\n') (text.take n),
    (text.drop n).takeWhile (· != '\n'), (text.drop n).dropWhile (· != '\n'), ?_⟩
  have htake := Text.dropTail_append_takeTail (· != '\n') (text.take n)
  refine ⟨?_, ?_, ?_, ?_, ?_, ?_⟩
  · rw [← List.append_assoc, htake, List.takeWhile_append_dropWhile, List.take_append_drop]
  · have hlength := congrArg List.length htake
    rw [List.length_append, List.length_take, Nat.min_eq_left hn] at hlength
    change (n : Int) = _
    omega
  · rcases List.eq_nil_or_concat (Text.dropTail (· != '\n') (text.take n)) with hnil | ⟨t, c, hc⟩
    · exact .inl hnil
    · have hlast := List.rdropWhile_last_not (p := (· != '\n')) (l := text.take n)
        (by rw [← Text.dropTail_eq, hc]; simp)
      refine .inr ⟨t, ?_⟩
      simp only [← Text.dropTail_eq, hc] at hlast
      simpa [hc] using hlast
  · intro hmem
    simpa using Text.of_mem_takeTail hmem
  · intro hmem
    simpa using List.mem_takeWhile_imp hmem
  · have hstops := Text.stops_dropWhile (· != '\n') (text.drop n)
    cases hdrop : (text.drop n).dropWhile (· != '\n') with
    | nil => exact .inl rfl
    | cons c t =>
        rw [hdrop, Text.stops_cons] at hstops
        exact .inr ⟨t, by simpa using hstops⟩

/-! ## Runs that are not refused -/

theorem act_of_actChecked {buffer next : Buffer} {action : Action}
    (h : buffer.actChecked action = .ok next) : buffer.act action = next := by
  unfold actChecked at h
  split at h
  · dsimp only at h
    split at h
    · cases h
    · exact Except.ok.inj h
  · exact Except.ok.inj h

/-- A run that is not refused does what the actions do. -/
theorem run_of_runChecked {buffer last : Buffer} {actions : List Action}
    (h : buffer.runChecked actions = .ok last) : buffer.run actions = last := by
  induction actions generalizing buffer with
  | nil => exact Except.ok.inj h
  | cons action rest ih =>
    rw [runChecked] at h
    split at h
    · cases h
    · next hnext =>
      rw [run, List.foldl_cons, act_of_actChecked hnext]
      exact ih h

end Buffer
end Edit
end AsmColumns
