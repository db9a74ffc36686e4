import AsmColumns.Proofs.Edit.Splice
import AsmColumns.Proofs.Line.Pass
import AsmColumns.Proofs.Session.Reachable

/-!
# Positions of a text and columns of its lines

Whether a position lies inside a comment is answered in two ways: for a position of the whole text,
by a walk over the readings of its lines, and for a column of one line, from the reading of that line
alone.  The walk steps over a line and the newline behind it at a time, so it comes to the line that
holds the offset with the column of the offset in that line, and the two answers are the same.

A position before the text, or more than one behind it, is noted.  There is no answer for one that
cannot be written out.
-/

namespace AsmColumns

open Edit (Buffer)
open Line (Reading entersOpen)

/-! ## Where a line starts -/

namespace Text

/-- The number of characters in lines that end in a newline each. -/
def lengthWithBreaks : List Text → Nat
  | [] => 0
  | line :: rest => line.length + 1 + lengthWithBreaks rest

@[simp] theorem lengthWithBreaks_nil : lengthWithBreaks [] = 0 := rfl

@[simp] theorem lengthWithBreaks_cons (line : Text) (rest : List Text) :
    lengthWithBreaks (line :: rest) = line.length + 1 + lengthWithBreaks rest := rfl

theorem lengthWithBreaks_append (texts later : List Text) :
    lengthWithBreaks (texts ++ later) = lengthWithBreaks texts + lengthWithBreaks later := by
  induction texts with
  | nil => simp
  | cons line rest ih =>
      rw [List.cons_append, lengthWithBreaks_cons, lengthWithBreaks_cons, ih]
      omega

theorem lengthWithBreaks_lines (t : Text) : lengthWithBreaks (lines t) = t.length + 1 := by
  induction t with
  | nil => rfl
  | cons c rest ih =>
      obtain ⟨line, later, hrest⟩ := List.exists_cons_of_ne_nil (lines_ne_nil rest)
      rw [hrest, lengthWithBreaks_cons] at ih
      by_cases hc : c = '\n'
      · simp only [lines, hc, beq_self_eq_true, if_true, hrest, lengthWithBreaks_cons,
          List.length_nil, List.length_cons]
        omega
      · simp only [lines, beq_iff_eq, hc, if_false, hrest, lengthWithBreaks_cons, List.length_cons]
        omega

/-- The offset at which the line of this number starts. -/
def startOfLine (t : Text) (number : Nat) : Nat :=
  lengthWithBreaks ((lines t).take number)

end Text

/-! ## The walk over the lines -/

namespace Comment

theorem isCommentAt_eq_covers (r : Reading) (column : Nat) :
    r.isCommentAt column = Span.covers r.comments column := by
  simp [Reading.isCommentAt, Span.covers, Span.containsAt]

/-- One step of the walk: a line and its newline are passed over. -/
theorem commentAt?_step (r : Reading) (rest : List Reading) (offset : Nat) :
    commentAt? (r.text.length + 1 + offset) (r :: rest) = commentAt? offset rest := by
  have hlt : ¬ r.text.length + 1 + offset < r.text.length := by omega
  have hne : ¬ r.text.length + 1 + offset = r.text.length := by omega
  rw [commentAt?, if_neg hlt, if_neg hne, Nat.add_sub_cancel_left]

/-- The walk comes to the line of this number with the column in it. -/
theorem commentAt?_of_getElem? {readings : List Reading} {number : Nat} {r : Reading}
    {column : Nat} (hr : readings[number]? = some r) (hcolumn : column ≤ r.text.length) :
    commentAt? (Text.lengthWithBreaks ((readings.map (·.text)).take number) + column) readings =
      some (decide (column < r.text.length) && Span.covers r.comments column) := by
  induction readings generalizing number with
  | nil => simp at hr
  | cons first rest ih =>
      cases number with
      | zero =>
          obtain rfl : first = r := by simpa using hr
          rw [List.take_zero, Text.lengthWithBreaks_nil, Nat.zero_add, commentAt?]
          by_cases hlt : column < first.text.length
          · simp [hlt, isCommentAt_eq_covers]
          · have hend : column = first.text.length := by omega
            simp [hend]
      | succ number =>
          rw [List.map_cons, List.take_succ_cons, Text.lengthWithBreaks_cons, Nat.add_assoc,
            commentAt?_step]
          exact ih (by simpa using hr)

/-- The walk ends behind the text, with its last newline counted. -/
theorem commentAt?_eq_none_iff {readings : List Reading} {offset : Nat} :
    commentAt? offset readings = none ↔
      Text.lengthWithBreaks (readings.map (·.text)) ≤ offset := by
  induction readings generalizing offset with
  | nil => simp [commentAt?]
  | cons r rest ih =>
      rw [List.map_cons, Text.lengthWithBreaks_cons, commentAt?]
      split
      · simp only [reduceCtorEq, false_iff]
        omega
      · split
        · simp only [reduceCtorEq, false_iff]
          omega
        · rw [ih]
          omega

theorem isInside_natCast_succ (offset : Nat) (readings : List Reading) :
    isInside (offset + 1) readings =
      match commentAt? offset readings with
      | some inside => .ok inside
      | none => Decimal.noting (offset + 1) false := by
  have hneg : ¬ (offset : Int) + 1 < 0 := by omega
  have hzero : ¬ (offset : Int) + 1 = 0 := by omega
  cases hoffset : commentAt? offset readings <;>
    simp only [isInside, if_neg hneg, if_neg hzero, Int.add_sub_cancel, Int.toNat_natCast, hoffset]

theorem isInside_of_commentAt? {offset : Nat} {readings : List Reading} {inside : Bool}
    (h : commentAt? offset readings = some inside) :
    isInside (offset + 1) readings = .ok inside := by
  rw [isInside_natCast_succ, h]

end Comment

/-! ## Sessions -/

namespace Line

theorem text_read (conv : Comment.Convention) (continued : Bool) (text : Text) :
    (read conv continued (some text)).text = text := by
  rw [read]
  split
  · rfl
  · exact text_readText ..

theorem map_text_readLines (conv : Comment.Convention) (continued : Bool) (lines : List Text) :
    (readLines conv continued (lines.map some)).map (·.text) = lines := by
  induction lines generalizing continued with
  | nil => rfl
  | cons line rest ih => simp [readLines, text_read, ih]

end Line

namespace Edit.Buffer

variable {buffer : Buffer} {above left right below : Text}

theorem EndsLine.lengthWithBreaks {upper : List Text} (hupper : ∀ t, Text.lines (above ++ t) =
    upper ++ Text.lines t) : Text.lengthWithBreaks upper = above.length := by
  have hlines := congrArg Text.lengthWithBreaks (hupper [])
  rw [List.append_nil, Text.lengthWithBreaks_append, Text.lengthWithBreaks_lines,
    Text.lengthWithBreaks_lines] at hlines
  exact (Nat.add_right_cancel hlines).symm

/-- The line of the cursor among the lines of the text. -/
theorem At.getElem?_lines (h : buffer.At above left right below) :
    buffer.text.lines[above.count '\n']? = some (left ++ right) ∧
      buffer.text.startOfLine (above.count '\n') = above.length := by
  obtain ⟨upper, hnumber, hupper⟩ := h.above_ends.lines_append
  obtain ⟨under, hunder⟩ := h.below_starts.lines_append
  have hline : '\n' ∉ left ++ right := by simp [h.left_line, h.right_line]
  have hlines : buffer.text.lines = upper ++ (left ++ right) :: under := by
    rw [h.text_eq, ← List.append_assoc left, hupper, hunder, Text.lines_of_notMem hline]
    rfl
  rw [Text.startOfLine, hlines, ← hnumber]
  constructor
  · simp
  · rw [List.take_left, EndsLine.lengthWithBreaks hupper]

/-- The line of the cursor ends at the cursor if a newline or nothing stands there. -/
theorem At.right_ne_nil_iff (h : buffer.At above left right below) :
    right ≠ [] ↔ above.length + left.length < buffer.text.length ∧
      buffer.text[above.length + left.length]? ≠ some '\n' := by
  have hhere : buffer.text[above.length + left.length]? = (right ++ below)[0]? := by
    rw [h.text_eq, ← List.append_assoc, ← List.length_append, List.getElem?_append_right le_rfl,
      Nat.sub_self]
  have hlength := congrArg List.length h.text_eq
  simp only [List.length_append] at hlength
  rw [hhere]
  cases right with
  | nil =>
      rcases h.below_starts with rfl | ⟨rest, rfl⟩
      · simp_all
      · simp
  | cons c right =>
      have hc : c ≠ '\n' := fun hc => h.right_line (hc ▸ List.mem_cons_self)
      refine iff_of_true (List.cons_ne_nil _ _) ⟨?_, by simpa using hc⟩
      rw [List.length_cons] at hlength
      omega

end Edit.Buffer

namespace Comment

variable {text : Text} {readings : List Reading} (htexts : readings.map (·.text) = text.lines)
include htexts

theorem commentAt?_startOfLine {number column : Nat} {r : Reading}
    (hr : readings[number]? = some r) (hcolumn : column ≤ r.text.length) :
    commentAt? (text.startOfLine number + column) readings =
      some (decide (column < r.text.length) && Span.covers r.comments column) := by
  rw [Text.startOfLine, ← htexts]
  exact commentAt?_of_getElem? hr hcolumn

theorem startOfLine_succ {number : Nat} {r : Reading} (hr : readings[number]? = some r) :
    text.startOfLine (number + 1) = text.startOfLine number + r.text.length + 1 := by
  rw [Text.startOfLine, ← htexts, List.take_add_one, Text.lengthWithBreaks_append,
    List.getElem?_map, hr, htexts]
  simp [Text.startOfLine, Nat.add_assoc]

/-- A column of a line is inside a comment of the text if it is in the line alone. -/
theorem isInside_line {number column : Nat} {r : Reading} (hr : readings[number]? = some r)
    (hcolumn : column ≤ r.text.length) :
    ∃ inside, isInside (text.startOfLine number + column) readings = .ok inside ∧
      isInside column [r] = .ok inside := by
  cases column with
  | zero =>
      refine ⟨false, ?_, rfl⟩
      -- The position is at the start of the line, so the walk ends at the newline above it.
      cases number with
      | zero => rfl
      | succ number =>
          obtain ⟨above, habove⟩ : ∃ above, readings[number]? = some above := by
            obtain ⟨hlt, -⟩ := List.getElem?_eq_some_iff.mp hr
            exact ⟨_, List.getElem?_eq_getElem (Nat.lt_of_succ_lt hlt)⟩
          have hnewline := commentAt?_startOfLine htexts habove le_rfl
          rw [decide_eq_false (Nat.lt_irrefl _), Bool.false_and] at hnewline
          rw [startOfLine_succ htexts habove]
          exact isInside_of_commentAt? hnewline
  | succ column =>
      have hwalk := commentAt?_startOfLine htexts hr (Nat.le_of_succ_le hcolumn)
      have hfirst : [r][0]? = some r := rfl
      have halone : commentAt? (0 + column) [r] = _ :=
        commentAt?_of_getElem? hfirst (Nat.le_of_succ_le hcolumn)
      rw [Nat.zero_add] at halone
      refine ⟨_, ?_, isInside_of_commentAt? halone⟩
      rw [Int.natCast_succ, ← Int.add_assoc, ← Int.natCast_add]
      exact isInside_of_commentAt? hwalk

theorem commentAt?_iff (offset : Nat) :
    commentAt? offset readings = some true ↔
      offset < text.length ∧ text[offset]? ≠ some '\n' ∧
        ∃ r, readings[(text.take offset).count '\n']? = some r ∧
          Span.covers r.comments (offset - Buffer.lineStart text offset) = true := by
  by_cases hle : offset ≤ text.length
  · obtain ⟨above, left, right, below, hat⟩ : ∃ above left right below,
        (⟨text, offset⟩ : Buffer).At above left right below := by
      refine Buffer.InRange.exists_at ⟨Int.natCast_nonneg _, ?_⟩
      exact Int.ofNat_le.mpr hle
    have hoffset : offset = above.length + left.length := by
      have hcursor : (offset : Int) = above.length + left.length := hat.cursor_eq
      omega
    have hnumber : (text.take offset).count '\n' = above.count '\n' := by
      have htake : text.take offset = above ++ left := hat.take_cursor
      rw [htake, List.count_append, List.count_eq_zero_of_not_mem hat.left_line, Nat.add_zero]
    have hcolumn : offset - Buffer.lineStart text offset = left.length := by
      have hstart := hat.lineStart_eq
      rw [Buffer.offsetAt_natCast hle] at hstart
      rw [hstart]
      omega
    obtain ⟨hline, hstart⟩ := hat.getElem?_lines
    obtain ⟨r, hr, htext⟩ : ∃ r, readings[above.count '\n']? = some r ∧ r.text = left ++ right := by
      have hmap := congrArg (·[above.count '\n']?) htexts
      simp only [List.getElem?_map, hline] at hmap
      exact Option.map_eq_some_iff.mp hmap
    have hleft : left.length ≤ r.text.length := by simp [htext]
    have hwalk : commentAt? offset readings =
        some (decide (right ≠ []) && Span.covers r.comments left.length) := by
      rw [hoffset, ← hstart, commentAt?_startOfLine htexts hr hleft, htext, List.length_append]
      simp [List.length_pos_iff]
    rw [hwalk, hnumber, hcolumn, hr, Option.some.injEq, Bool.and_eq_true, decide_eq_true_iff,
      hat.right_ne_nil_iff, hoffset, and_assoc]
    simp
  · have hnone : commentAt? offset readings = none := by
      rw [commentAt?_eq_none_iff, htexts, Text.lengthWithBreaks_lines]
      omega
    refine iff_of_false (by simp [hnone]) fun h => hle h.1.le

theorem isInside_iff (position : Int) :
    isInside position readings = .ok true ↔
      ∃ offset : Nat, position = offset + 1 ∧ offset < text.length ∧
        text[offset]? ≠ some '\n' ∧
        ∃ r, readings[(text.take offset).count '\n']? = some r ∧
          Span.covers r.comments (offset - Buffer.lineStart text offset) = true := by
  by_cases hpos : 0 < position
  · obtain ⟨offset, rfl⟩ : ∃ offset : Nat, position = offset + 1 :=
      ⟨(position - 1).toNat, by omega⟩
    have hwalk : isInside (offset + 1) readings = .ok true ↔
        commentAt? offset readings = some true := by
      rw [isInside_natCast_succ]
      cases commentAt? offset readings with
      | some inside => simp
      | none => simp [Decimal.noting_ne_ok_true]
    rw [hwalk, commentAt?_iff htexts]
    constructor
    · exact fun h => ⟨offset, rfl, h⟩
    · rintro ⟨other, hother, h⟩
      obtain rfl : offset = other := by omega
      exact h
  · refine iff_of_false ?_ ?_
    · rw [isInside]
      split
      · exact Decimal.noting_ne_ok_true position
      · rw [if_pos (by omega)]
        simp
    · rintro ⟨offset, rfl, -⟩
      omega

/-- There is no answer exactly if the position is noted and cannot be written. -/
theorem isInside_eq_error_iff (position : Int) :
    isInside position readings = .error {} ↔
      Decimal.isWritable position = false ∧ (position < 0 ∨ text.length + 1 < position) := by
  by_cases hneg : position < 0
  · rw [isInside, if_pos hneg, Decimal.noting_eq_error_iff]
    simp [hneg]
  · by_cases hzero : position = 0
    · rw [isInside, if_neg hneg, if_pos hzero]
      simp only [reduceCtorEq, false_iff]
      omega
    · obtain ⟨offset, rfl⟩ : ∃ offset : Nat, position = offset + 1 :=
        ⟨(position - 1).toNat, by omega⟩
      have hbehind := @commentAt?_eq_none_iff readings offset
      rw [htexts, Text.lengthWithBreaks_lines] at hbehind
      rw [isInside_natCast_succ]
      cases hwalk : commentAt? offset readings with
      | some inside =>
          rw [hwalk] at hbehind
          simp only [reduceCtorEq, false_iff] at hbehind ⊢
          omega
      | none =>
          have hlong : text.length + 1 ≤ offset := hbehind.mp hwalk
          rw [Decimal.noting_eq_error_iff]
          refine (and_iff_left ?_).symm
          omega

end Comment

namespace Session

/-- After a text has been read, a position of it lies inside a comment exactly if the character
before it is no newline and the reading of its line covers the column of that character.  Only a
position that cannot be written has no answer, if it lies before the text or more than one behind
it.  For a column of a line there is an answer, and it is what the reading of that line alone
tells. -/
theorem isInside_readText_iff {s : Session} (hs : s.Reachable) (text : Text) :
    let readings := (s.readText text).1
    let behind := (s.readText text).2
    (∀ position : Int,
      (behind.isInside position = .ok true ↔
        ∃ offset : Nat, position = offset + 1 ∧ offset < text.length ∧
          text[offset]? ≠ some '\n' ∧
          ∃ r, readings[(text.take offset).count '\n']? = some r ∧
            Span.covers r.comments (offset - Buffer.lineStart text offset) = true) ∧
      (behind.isInside position = .error {} ↔
        Decimal.isWritable position = false ∧ (position < 0 ∨ text.length + 1 < position))) ∧
    (∀ (number : Nat) (line : Text), text.lines[number]? = some line →
      ∀ column ≤ line.length, ∃ inside,
        behind.isInside (text.startOfLine number + column) = .ok inside ∧
          Comment.isInside column
            [(behind.read (some line) (entersOpen false readings number)).1] = .ok inside) := by
  intro readings behind
  have h := hs.coherent
  have hreadings : readings = Line.readLines s.convention false (text.lines.map some) :=
    h.readText_eq text
  have htexts : readings.map (·.text) = text.lines := by
    rw [hreadings, Line.map_text_readLines]
  refine ⟨fun position => ⟨Comment.isInside_iff htexts position,
    Comment.isInside_eq_error_iff htexts position⟩, fun number line hline column hcolumn => ?_⟩
  have hread : readings[number]? =
      some (behind.read (some line) (entersOpen false readings number)).1 := by
    have hbehind : behind.Coherent := h.readText text
    have hr := (hbehind.sound.read (some line) (entersOpen false readings number)
      (some s.convention)).1
    rw [hreadings, Line.getElem?_readLines, List.getElem?_map, hline, ← hreadings]
    exact congrArg some hr.symm
  refine Comment.isInside_line htexts hread ?_
  have htext := congrArg (·[number]?) htexts
  simp only [List.getElem?_map, hread, hline, Option.map_some, Option.some.injEq] at htext
  rwa [htext]

/-- The first character of the second line is inside the comment that the first line opens, and so
it is for the second line alone, entered inside that comment.  Far before the text and far behind it
there is no answer. -/
theorem isInside_readText_second_line :
    let s := ofSettings { style := .blockSlashStar }
    let text := "/*\n* */".toList
    let behind := (s.readText text).2
    s.Reachable ∧ behind.isInside 4 = .ok true ∧
      Comment.isInside 1 [(behind.read (some "* */".toList)
        (entersOpen false (s.readText text).1 1)).1] = .ok true ∧
      behind.isInside Decimal.leastUnwritable = .error {} ∧
      behind.isInside (-Decimal.leastUnwritable) = .error {} := by
  intro s text behind
  have hs : s.Reachable := reachable_ofSettings
    ⟨Settings.valid_default.stops_nonneg, Settings.valid_default.stops_sorted,
      Settings.valid_default.width_pos, Settings.valid_default.column_nonneg⟩
  obtain ⟨hiff, hline⟩ := isInside_readText_iff hs text
  have hinside : behind.isInside 4 = .ok true := by
    refine (hiff 4).1.mpr ⟨3, rfl, by decide, by decide, ?_⟩
    rw [hs.coherent.readText_eq text]
    exact ⟨_, rfl, by decide⟩
  obtain ⟨inside, hwhole, halone⟩ := hline 1 "* */".toList rfl 1 (by decide)
  obtain rfl : true = inside := Except.ok.inj (hinside.symm.trans hwhole)
  have hfar := Decimal.maxRun_lt_leastUnwritable
  have hrun : (8 : Int) < Text.maxRun := by decide
  refine ⟨hs, hinside, halone, (hiff _).2.mpr ⟨Decimal.isWritable_leastUnwritable, .inr ?_⟩,
    (hiff _).2.mpr ⟨?_, .inl ?_⟩⟩
  · change (7 : Int) + 1 < _
    omega
  · rw [Decimal.isWritable_neg]
    exact Decimal.isWritable_leastUnwritable
  · omega

end Session

end AsmColumns
