import AsmColumns.Edit.Indent
import AsmColumns.Edit.Keys
import AsmColumns.Proofs.Edit.Frame
import AsmColumns.Proofs.Layout.Column

/-!
# Keys splice their text in at the cursor

What the actions of a key may do to a buffer: the ink they insert goes in at the cursor, what they
delete is blank, and the lines that do not hold the cursor stay as they are.  Each key is shown to
keep to this, on every line and with the cursor anywhere in it.  Nothing here depends on how the
line is read: a key that decides wrongly still loses nothing.
-/

namespace AsmColumns
namespace Edit

open Comment (Convention)
open Line (Reading)

@[simp] theorem Buffer.run_nil (buffer : Buffer) : buffer.run [] = buffer := rfl

@[simp] theorem Buffer.run_cons (buffer : Buffer) (action : Action) (rest : List Action) :
    buffer.run (action :: rest) = (buffer.act action).run rest := rfl

@[simp] theorem Buffer.run_append (buffer : Buffer) (first last : List Action) :
    buffer.run (first ++ last) = (buffer.run first).run last :=
  List.foldl_append

def Action.deletes : Action → Bool
  | .deleteRange _ _ => true
  | _ => false

/-- The text that an action inserts. -/
def Action.inserted : Action → Text
  | .insertChar piece => piece
  | .insertText piece => piece
  | .insertNewline => ['\n']
  | _ => []

/-- The text that a list of actions inserts. -/
def inserted (actions : List Action) : Text :=
  actions.flatMap Action.inserted

@[simp] theorem inserted_nil : inserted [] = [] := rfl

@[simp] theorem inserted_cons (action : Action) (rest : List Action) :
    inserted (action :: rest) = action.inserted ++ inserted rest := by
  simp [inserted]

@[simp] theorem inserted_append (first last : List Action) :
    inserted (first ++ last) = inserted first ++ inserted last := by
  simp [inserted]

namespace Buffer

/-- Every deletion of the actions takes out blanks of the line that holds the cursor. -/
def DeletesBlanks (buffer : Buffer) : List Action → Prop
  | [] => True
  | action :: rest =>
      (match action with
        | .deleteRange start stop =>
            0 ≤ start ∧ start ≤ stop ∧ stop ≤ buffer.line.length ∧
              Text.allBlank (buffer.line.slice start.toNat stop.toNat) = true
        | _ => True) ∧
      DeletesBlanks (buffer.act action) rest

/-- The buffer `after` holds the ink of `before` with that of `piece` put in at the cursor, and
differs from `before` only in the line of the cursor. -/
structure Spliced (before : Buffer) (piece : Text) (after : Buffer) : Prop where
  inRange : after.InRange
  otherLines :
    ∃ above below edited,
      before.text.lines = above ++ before.line :: below ∧
      above.length = (before.text.take before.cursor.toNat).count '\n' ∧
      edited ≠ [] ∧ after.text.lines = above ++ edited ++ below
  ink_eq :
    after.text.ink =
      Text.ink (before.text.take before.cursor.toNat) ++ piece.ink ++
        Text.ink (before.text.drop before.cursor.toNat)

theorem EndsLine.lines_append {above : Text} (h : EndsLine above) :
    ∃ upper, upper.length = above.count '\n' ∧
      ∀ t, Text.lines (above ++ t) = upper ++ Text.lines t := by
  rcases h with rfl | ⟨s, rfl⟩
  · exact ⟨[], rfl, fun t => rfl⟩
  · refine ⟨Text.lines s, ?_, ?_⟩
    · rw [Text.length_lines, List.count_append]
      rfl
    · intro t
      rw [List.append_assoc, List.singleton_append, Text.lines_append_newline]

theorem StartsBreak.lines_append {below : Text} (h : StartsBreak below) :
    ∃ under, ∀ t, Text.lines (t ++ below) = Text.lines t ++ under := by
  rcases h with rfl | ⟨s, rfl⟩
  · exact ⟨[], fun t => by simp⟩
  · exact ⟨Text.lines s, fun t => Text.lines_append_newline t s⟩

section Spliced

variable {before after : Buffer} {above left right below piece : Text}

theorem At.take_cursor (h : before.At above left right below) :
    before.text.take before.cursor.toNat = above ++ left := by
  have hcursor : before.cursor.toNat = (above ++ left).length := by
    rw [h.cursor_eq, List.length_append]
    omega
  rw [hcursor, h.text_eq, ← List.append_assoc]
  exact List.take_left

theorem At.drop_cursor (h : before.At above left right below) :
    before.text.drop before.cursor.toNat = right ++ below := by
  have hcursor : before.cursor.toNat = (above ++ left).length := by
    rw [h.cursor_eq, List.length_append]
    omega
  rw [hcursor, h.text_eq, ← List.append_assoc]
  exact List.drop_left

/-- A buffer that differs from `before` only between the lines above and below its cursor. -/
theorem At.spliced (h : before.At above left right below) (edited : Text)
    (hrange : after.InRange) (htext : after.text = above ++ (edited ++ below))
    (hink : edited.ink = left.ink ++ piece.ink ++ right.ink) :
    before.Spliced piece after := by
  obtain ⟨upper, hover, habove⟩ := h.above_ends.lines_append
  obtain ⟨under, hbelow⟩ := h.below_starts.lines_append
  have hline : '\n' ∉ left ++ right := by simp [h.left_line, h.right_line]
  refine ⟨hrange, ⟨upper, under, Text.lines edited, ?_, ?_, Text.lines_ne_nil edited, ?_⟩, ?_⟩
  · rw [h.text_eq, ← List.append_assoc left, habove, hbelow, Text.lines_of_notMem hline, h.line_eq]
    rfl
  · rw [h.take_cursor, List.count_append, List.count_eq_zero_of_not_mem h.left_line, hover]
    rfl
  · rw [htext, habove, hbelow, List.append_assoc]
  · rw [htext, h.take_cursor, h.drop_cursor]
    simp [hink]

/-- The same when the new place of the cursor is known. -/
theorem At.spliced_of_at (h : before.At above left right below) (broken : Text)
    {left' right' : Text} (hafter : after.At (above ++ broken) left' right' below)
    (hink : Text.ink (broken ++ left' ++ right') = left.ink ++ piece.ink ++ right.ink) :
    before.Spliced piece after := by
  refine h.spliced _ hafter.inRange ?_ hink
  rw [hafter.text_eq]
  simp

theorem Spliced.refl (h : before.InRange) : before.Spliced [] before := by
  obtain ⟨above, left, right, below, hat⟩ := h.exists_at
  exact hat.spliced _ h (by rw [hat.text_eq, List.append_assoc]) (by simp)

end Spliced

/-! ## Actions one by one

While the actions of a key are carried out, the ink that stood before the cursor and the ink
inserted so far stand before it, and the ink behind it stays behind it.  `passed` is the part of
the cursor's line that the cursor has passed. -/

structure Carries (before : Buffer) (piece : Text) (now : Buffer) (passed : Text) : Prop where
  frame :
    ∃ above left right below broken right',
      before.At above left right below ∧ now.At (above ++ broken) passed right' below ∧
      Text.ink (broken ++ passed) = left.ink ++ piece.ink ∧ right'.ink = right.ink

section Carries

variable {before now : Buffer} {above left right below piece passed : Text}

theorem At.carries (h : before.At above left right below) : before.Carries [] before left :=
  ⟨above, left, right, below, [], right, h, by simpa using h, by simp, rfl⟩

theorem Carries.insert (h : before.Carries piece now passed) (more : Text)
    (hmore : '\n' ∉ more) :
    before.Carries (piece ++ more) (now.insert more) (passed ++ more) := by
  obtain ⟨above, left, right, below, broken, right', hbefore, hnow, hleft, hright⟩ := h
  refine ⟨above, left, right, below, broken, right', hbefore, hnow.insert more hmore, ?_, hright⟩
  rw [← List.append_assoc, Text.ink_append, hleft]
  simp

theorem Carries.insertNewline (h : before.Carries piece now passed) :
    before.Carries (piece ++ ['\n']) (now.insert ['\n']) [] := by
  obtain ⟨above, left, right, below, broken, right', hbefore, hnow, hleft, hright⟩ := h
  refine ⟨above, left, right, below, broken ++ (passed ++ ['\n']), right', hbefore, ?_, ?_, hright⟩
  · rw [← List.append_assoc above]
    exact hnow.insertNewline
  · rw [List.append_nil, ← List.append_assoc, Text.ink_append, hleft]
    simp

theorem Carries.deleteBefore {kept gone rest : Text} {start stop : Int}
    (h : before.Carries piece now (kept ++ (gone ++ rest))) (hgone : gone.allBlank)
    (hstart : start = kept.length) (hstop : stop = kept.length + gone.length) :
    before.Carries piece (now.delete start stop) (kept ++ rest) := by
  obtain ⟨above, left, right, below, broken, right', hbefore, hnow, hleft, hright⟩ := h
  refine ⟨above, left, right, below, broken, right', hbefore,
    hnow.deleteBefore hstart hstop, ?_, hright⟩
  rw [← hleft]
  simp [hgone]

theorem Carries.deleteLead {gone rest : Text} (h : before.Carries piece now (gone ++ rest))
    (hgone : gone.allBlank) : before.Carries piece (now.delete 0 gone.length) rest := by
  have hcarries : before.Carries piece now ([] ++ (gone ++ rest)) := h
  exact hcarries.deleteBefore hgone rfl (by simp)

theorem Carries.deleteTail {kept gone : Text} (h : before.Carries piece now (kept ++ gone))
    (hgone : gone.allBlank) :
    before.Carries piece (now.delete kept.length (kept ++ gone).length) kept := by
  have hcarries : before.Carries piece now (kept ++ (gone ++ [])) := by simpa using h
  simpa using hcarries.deleteBefore hgone rfl rfl

theorem Carries.moveForward (h : before.Carries piece now passed) {column : Int}
    (hcolumn : passed.length ≤ column) :
    before.Carries piece (now.moveTo column)
      (passed ++ Text.spaces (column - passed.length)) := by
  obtain ⟨above, left, right, below, broken, right', hbefore, hnow, hleft, hright⟩ := h
  obtain ⟨right'', hright'', hmoved⟩ := hnow.moveForward hcolumn
  refine ⟨above, left, right, below, broken, right'', hbefore, hmoved, ?_, hright''.trans hright⟩
  rw [← hleft]
  simp

/-- The last insertion of a key may hold newlines. -/
theorem Carries.spliced_insert (h : before.Carries piece now passed) (more : Text) :
    before.Spliced (piece ++ more) (now.insert more) := by
  obtain ⟨above, left, right, below, broken, right', hbefore, hnow, hleft, hright⟩ := h
  have hinsert := hnow.insert_eq more
  refine hbefore.spliced (broken ++ passed ++ more ++ right') ?_ ?_ ?_
  · rw [hinsert]
    simp only [InRange, List.length_append]
    omega
  · rw [hinsert]
    simp
  · rw [Text.ink_append, Text.ink_append, hleft, hright]
    simp

theorem Carries.spliced (h : before.Carries piece now passed) : before.Spliced piece now := by
  have hinsert := h.spliced_insert []
  have hnow : now.insert [] = now := by
    simp [Buffer.insert]
  rwa [hnow, List.append_nil] at hinsert

end Carries

/-! ## Deletions -/

section Deletions

variable {buffer : Buffer} {above left right below : Text} {rest : List Action}

@[simp] theorem deletesBlanks_nil : buffer.DeletesBlanks [] := trivial

theorem deletesBlanks_cons {action : Action} (haction : action.deletes = false)
    (hrest : (buffer.act action).DeletesBlanks rest) :
    buffer.DeletesBlanks (action :: rest) := by
  refine ⟨?_, hrest⟩
  cases action with
  | deleteRange start stop => cases haction
  | _ => trivial

theorem deletesBlanks_of_forall {actions : List Action}
    (h : ∀ action ∈ actions, action.deletes = false) : buffer.DeletesBlanks actions := by
  induction actions generalizing buffer with
  | nil => trivial
  | cons action rest ih =>
      apply deletesBlanks_cons (h action (by simp))
      exact ih fun other hother => h other (by simp [hother])

theorem deletesBlanks_append {first last : List Action} (hfirst : buffer.DeletesBlanks first)
    (hlast : (buffer.run first).DeletesBlanks last) : buffer.DeletesBlanks (first ++ last) := by
  induction first generalizing buffer with
  | nil => exact hlast
  | cons action rest ih => exact ⟨hfirst.1, ih hfirst.2 hlast⟩

theorem At.deletesBlanks_cons {kept gone others : Text} {start stop : Int}
    (h : buffer.At above left right below) (hline : left ++ right = kept ++ (gone ++ others))
    (hstart : start = kept.length) (hstop : stop = kept.length + gone.length)
    (hgone : gone.allBlank) (hrest : (buffer.delete start stop).DeletesBlanks rest) :
    buffer.DeletesBlanks (.deleteRange start stop :: rest) := by
  refine ⟨⟨by omega, by omega, ?_, ?_⟩, hrest⟩
  · rw [h.line_eq, hline]
    simp only [List.length_append]
    omega
  · have hfrom : start.toNat = kept.length := by omega
    have hto : stop.toNat = kept.length + gone.length := by omega
    rw [h.line_eq, hline, hfrom, hto, Text.slice, List.drop_left, Nat.add_sub_cancel_left,
      List.take_left]
    exact hgone

theorem At.deletesBlanks_lead {gone others : Text} (h : buffer.At above left right below)
    (hline : left ++ right = gone ++ others) (hgone : gone.allBlank)
    (hrest : (buffer.delete 0 gone.length).DeletesBlanks rest) :
    buffer.DeletesBlanks (.deleteRange 0 gone.length :: rest) := by
  have hparts : left ++ right = [] ++ (gone ++ others) := hline
  exact h.deletesBlanks_cons hparts rfl (by simp) hgone hrest

theorem Carries.deletesBlanks_lead {before : Buffer} {piece gone others : Text}
    (h : before.Carries piece buffer (gone ++ others)) (hgone : gone.allBlank)
    (hrest : (buffer.delete 0 gone.length).DeletesBlanks rest) :
    buffer.DeletesBlanks (.deleteRange 0 gone.length :: rest) := by
  obtain ⟨above, left, right, below, broken, right', -, hnow, -, -⟩ := h
  exact hnow.deletesBlanks_lead (List.append_assoc ..) hgone hrest

theorem Carries.deletesBlanks_tail {before : Buffer} {piece kept gone : Text}
    (h : before.Carries piece buffer (kept ++ gone)) (hgone : gone.allBlank)
    (hrest : (buffer.delete kept.length (kept ++ gone).length).DeletesBlanks rest) :
    buffer.DeletesBlanks (.deleteRange kept.length (kept ++ gone).length :: rest) := by
  obtain ⟨above, left, right, below, broken, right', -, hnow, -, -⟩ := h
  exact hnow.deletesBlanks_cons (List.append_assoc ..) rfl (by simp) hgone hrest

end Deletions

/-- What the actions of a key may do: splice their text in at the cursor, and delete blanks. -/
structure Splices (buffer : Buffer) (actions : List Action) : Prop where
  spliced : buffer.Spliced (inserted actions) (buffer.run actions)
  deletesBlanks : buffer.DeletesBlanks actions

end Buffer

/-! ## The keys -/

section Keys

open Buffer

variable {buffer : Buffer} {above left right below : Text} {s : Settings}

theorem clamp_eq (left right : Text) : clamp (left ++ right) left.length = left.length := by
  rw [clamp, Int.toNat_natCast, List.length_append]
  omega

theorem splices_insertChar (h : buffer.At above left right below) (piece : Text) :
    buffer.Splices [.insertChar piece] :=
  ⟨by simpa [act, Action.inserted] using h.carries.spliced_insert piece,
    deletesBlanks_of_forall (by simp [Action.deletes])⟩

theorem splices_insertText (h : buffer.At above left right below) (piece : Text) :
    buffer.Splices [.insertText piece] :=
  ⟨by simpa [act, Action.inserted] using h.carries.spliced_insert piece,
    deletesBlanks_of_forall (by simp [Action.deletes])⟩

theorem splices_move (h : buffer.At above left right below) {column : Int}
    (hcolumn : left.length ≤ column) : buffer.Splices [.moveToColumn column] :=
  ⟨(h.carries.moveForward hcolumn).spliced, deletesBlanks_of_forall (by simp [Action.deletes])⟩

theorem splices_moveBack (h : buffer.At above left right below) {column : Nat}
    (hcolumn : column ≤ left.length) : buffer.Splices [.moveToColumn column] := by
  have hafter : (buffer.run [.moveToColumn column]).At (above ++ []) (left.take column)
      (left.drop column ++ right) below := by
    rw [List.append_nil]
    exact h.moveLeft hcolumn
  refine ⟨h.spliced_of_at [] hafter ?_, deletesBlanks_of_forall (by simp [Action.deletes])⟩
  rw [List.nil_append, ← List.append_assoc, List.take_append_drop, Text.ink_append]
  simp [Action.inserted]

theorem splices_space (h : buffer.At above left right below) (hs : s.Valid) (inside : Bool) :
    buffer.Splices (spaceKey s inside (left ++ right) left.length) := by
  have hnext : (left.length : Int) < s.stops.nextStop left.length :=
    TabStops.lt_nextStop hs.width_pos _
  simp only [spaceKey, clamp_eq]
  split
  · next hzero =>
    rw [hzero, Int.natCast_zero] at hnext
    exact splices_move h (by omega)
  · split
    · exact splices_move h (by omega)
    · exact splices_insertChar h [' ']

theorem splices_hash (h : buffer.At above left right below) :
    buffer.Splices (hashKey (left ++ right) left.length) := by
  simp only [hashKey, clamp_eq, List.take_left]
  split
  · next hlead =>
    simp only [Bool.and_eq_true, decide_eq_true_eq] at hlead
    have hcarries : buffer.Carries [] buffer (left ++ []) := by simpa using h.carries
    have hdelete := hcarries.deleteLead hlead.2
    refine ⟨?_, ?_⟩
    · simpa [act, Action.inserted] using hdelete.spliced_insert ['#']
    · exact h.deletesBlanks_lead rfl hlead.2 (deletesBlanks_of_forall (by simp [Action.deletes]))
  · exact splices_insertChar h ['#']

theorem splices_newline (h : buffer.At above left right below) (hs : s.Valid) :
    buffer.Splices (newlineKey s) := by
  have hfirst : 0 < s.stops.first := TabStops.first_pos hs.width_pos
  refine ⟨?_, deletesBlanks_of_forall (by simp [newlineKey, Action.deletes])⟩
  have hmove := h.carries.insertNewline.moveForward (by simpa using Int.le_of_lt hfirst)
  simpa [newlineKey, act, Action.inserted] using hmove.spliced

/-- Indenting moves the cursor to the margin first, so it is not a case of `Carries`; but it
inserts no ink. -/
theorem splices_indent (h : buffer.At above left right below) {column : Int}
    (hcolumn : 0 ≤ column) : buffer.Splices (indentTo (left ++ right) column) := by
  set lead := (left ++ right).takeWhile Text.isPad with hlead
  have hline : left ++ right = lead ++ (left ++ right).dropWhile Text.isPad :=
    List.takeWhile_append_dropWhile.symm
  have hblank : Text.allBlank lead := Text.allBlank_takeWhile_isPad (left ++ right)
  rw [indentTo]
  split
  · exact ⟨Spliced.refl h.inRange, trivial⟩
  · have hmargin : (buffer.moveTo 0).At above [] (left ++ right) below := by
      simpa using h.moveLeft (Nat.zero_le left.length)
    have hdelete : ((buffer.moveTo 0).delete 0 lead.length).At above []
        ((left ++ right).dropWhile Text.isPad) below := by
      rw [hline] at hmargin
      exact hmargin.deleteBehind
    obtain ⟨right', hright, hafter⟩ := hdelete.moveForward hcolumn
    refine ⟨?_, ?_⟩
    · apply h.spliced_of_at []
      · rw [List.append_nil]
        exact hafter
      · have hink : Text.ink (left ++ right) =
            Text.ink ((left ++ right).dropWhile Text.isPad) := by
          conv_lhs => rw [hline, Text.ink_append, Text.ink_of_allBlank hblank]
          rfl
        rw [Text.ink_append] at hink
        simp [hright, Action.inserted, hink]
    · apply deletesBlanks_cons rfl
      exact hmargin.deletesBlanks_lead hline hblank
        (deletesBlanks_of_forall (by simp [Action.deletes]))

theorem labelWord?_eq_some {before : Text} {word : LabelWord}
    (h : labelWord? before = some word) :
    ∃ lead name tail, before = lead ++ name ++ tail ∧ lead.allBlank ∧ tail.allBlank ∧
      name ≠ [] ∧ (∀ c ∈ name, Line.isLabelChar c = true) ∧ word = ⟨lead.length, name.length⟩ := by
  simp only [labelWord?] at h
  split at h
  · cases h
  · next hword =>
    simp only [Bool.or_eq_true, Bool.not_eq_true', not_or, Bool.not_eq_false] at hword
    refine ⟨_, _, Text.takeTail Text.isBlank before, ?_, hword.2, Text.allBlank_takeTail before,
      by simpa using hword.1, fun c hc => Text.of_mem_takeTail hc, (Option.some.inj h).symm⟩
    rw [Text.dropTail_append_takeTail, Text.trimRight_eq]

/-- The part of the colon key before the colon: the blanks around the word go. -/
theorem carries_bareWord {lead name tail : Text}
    (h : buffer.At above (lead ++ name ++ tail) right below)
    (hlead : lead.allBlank) (htail : tail.allBlank) :
    let actions : List Action :=
      (if lead.length + name.length < (lead ++ name ++ tail).length then
        [.deleteRange (lead.length + name.length : Nat) (lead ++ name ++ tail).length] else []) ++
      (if 0 < lead.length then [.deleteRange 0 lead.length] else [])
    buffer.Carries [] (buffer.run actions) name ∧ buffer.DeletesBlanks actions ∧
      inserted actions = [] := by
  intro actions
  have hinserted : inserted actions = [] := by
    simp only [actions, inserted_append]
    split <;> split <;> simp [Action.inserted]
  rw [← and_assoc]
  refine ⟨?_, hinserted⟩
  have hword : ∃ first : List Action,
      first = (if lead.length + name.length < (lead ++ name ++ tail).length then
        [.deleteRange (lead.length + name.length : Nat) (lead ++ name ++ tail).length] else []) ∧
      buffer.Carries [] (buffer.run first) (lead ++ name) ∧ buffer.DeletesBlanks first := by
    refine ⟨_, rfl, ?_⟩
    rw [← List.length_append]
    split
    · exact ⟨h.carries.deleteTail htail, h.carries.deletesBlanks_tail htail trivial⟩
    · next hnone =>
      have hnil : tail = [] := by
        simp only [List.length_append] at hnone
        exact List.eq_nil_of_length_eq_zero (by omega)
      have hcarries := h.carries
      rw [hnil, List.append_nil] at hcarries
      exact ⟨hcarries, trivial⟩
  obtain ⟨first, hfirst, hcarries, hdeletes⟩ := hword
  simp only [actions, ← hfirst]
  split
  · refine ⟨?_, deletesBlanks_append hdeletes (hcarries.deletesBlanks_lead hlead trivial)⟩
    rw [run_append]
    exact hcarries.deleteLead hlead
  · next hnone =>
    have hnil : lead = [] := List.eq_nil_of_length_eq_zero (by omega)
    rw [hnil, List.nil_append] at hcarries
    rw [List.append_nil]
    exact ⟨hcarries, hdeletes⟩

/-- The colon itself, if it is wanted. -/
theorem carries_colon {now : Buffer} {name : Text} (h : buffer.Carries [] now name) :
    let colon : List Action := if s.colonAfterLabel then [.insertChar [':']] else []
    buffer.Carries (inserted colon) (now.run colon) (name ++ inserted colon) ∧
      (name ++ inserted colon).length =
        if s.colonAfterLabel then name.length + 1 else name.length := by
  intro colon
  simp only [colon]
  split
  · refine ⟨?_, by simp [Action.inserted]⟩
    simpa [act, Action.inserted] using h.insert [':'] (by decide)
  · exact ⟨by simpa using h, by simp⟩

/-- The way from behind the label to the operation. -/
theorem carries_jump {now : Buffer} {piece label : Text} (h : buffer.Carries piece now label)
    (hs : s.Valid) :
    let jump : List Action :=
      if s.newlineAfterLabel then [.insertNewline, .moveToColumn s.stops.first]
      else [.moveToColumn (s.stops.nextStop label.length)]
    ∃ passed, buffer.Carries (piece ++ inserted jump) (now.run jump) passed := by
  intro jump
  simp only [jump]
  split
  · have hfirst : 0 < s.stops.first := TabStops.first_pos hs.width_pos
    have hmoved := h.insertNewline.moveForward (by simpa using Int.le_of_lt hfirst)
    exact ⟨_, by simpa [act, Action.inserted] using hmoved⟩
  · have hnext : (label.length : Int) < s.stops.nextStop label.length :=
      TabStops.lt_nextStop hs.width_pos _
    have hmoved := h.moveForward (Int.le_of_lt hnext)
    exact ⟨_, by simpa [act, Action.inserted] using hmoved⟩

theorem splices_colon (h : buffer.At above left right below) (hs : s.Valid) (inside : Bool) :
    buffer.Splices (colonKey s inside (left ++ right) left.length) := by
  have hplain : buffer.Splices (if s.colonAfterLabel then [.insertChar [':']] else []) := by
    split
    · exact splices_insertChar h [':']
    · exact ⟨Spliced.refl h.inRange, trivial⟩
  simp only [colonKey, clamp_eq, List.take_left]
  split
  · exact hplain
  · next word hword =>
    split
    · exact hplain
    · obtain ⟨lead, name, tail, rfl, hlead, htail, -, -, rfl⟩ := labelWord?_eq_some hword
      obtain ⟨hbare, hdeletes, hinserted⟩ := carries_bareWord h hlead htail
      obtain ⟨hcolon, hcolumn⟩ := carries_colon hbare
      obtain ⟨passed, hjump⟩ := carries_jump hcolon hs
      rw [hcolumn] at hjump
      refine ⟨?_, ?_⟩
      · rw [inserted_append, inserted_append, hinserted, List.nil_append, run_append, run_append]
        exact hjump.spliced
      · rw [List.append_assoc]
        refine deletesBlanks_append hdeletes (deletesBlanks_of_forall ?_)
        split <;> split <;> simp [Action.deletes]

theorem splices_delimiter (h : buffer.At above left right below) (delimiter : Char)
    (repeatable : Bool) (r : Reading) (previous : Option Reading) :
    buffer.Splices
      (delimiterKey delimiter repeatable r previous (left ++ right) left.length) := by
  have hinner : ∀ inside : Bool,
      buffer.Splices (if inside then [.insertChar [delimiter]]
        else [.delegate "comment-dwim".toList]) := by
    intro inside
    split
    · exact splices_insertChar h [delimiter]
    · exact ⟨Spliced.refl h.inRange, deletesBlanks_of_forall (by simp [Action.deletes])⟩
  simp only [delimiterKey, clamp_eq, List.take_left]
  split
  · -- the comment goes on in a new line
    refine ⟨?_, deletesBlanks_of_forall (by simp [Action.deletes])⟩
    have hmoved := h.carries.insertNewline.moveForward
      (Int.natCast_nonneg (left.length - (Text.takeTail (· == delimiter) left).length))
    simpa [act, Action.inserted] using hmoved.spliced_insert _
  · split
    · next text column habove =>
      split
      · -- the comment above goes on in this line
        next hblank =>
        simp only [Bool.and_eq_true, decide_eq_true_eq] at hblank
        have hcarries : buffer.Carries [] buffer (left ++ []) := by simpa using h.carries
        have hmoved := (hcarries.deleteLead hblank.1.2).moveForward (Int.natCast_nonneg column)
        refine ⟨?_, ?_⟩
        · simpa [act, Action.inserted] using hmoved.spliced_insert _
        · exact h.deletesBlanks_lead rfl hblank.1.2
            (deletesBlanks_of_forall (by simp [Action.deletes]))
      · exact hinner _
    · exact hinner _

end Keys

end Edit
end AsmColumns
