import AsmColumns.Proofs.Edit.Splice
import AsmColumns.Proofs.Line.Shapes
import AsmColumns.Proofs.Value

/-!
# What the keys make of a buffer

The text and the cursor behind the actions of a key, where the actions are carried out one by one
and a run of spaces that no text can hold stops them.  A move to the right is the only action that
can be stopped.  In the actions of a key at most one such move goes to the right, and nothing comes
behind it but the run with which the comment key goes on.
-/

namespace AsmColumns
namespace Edit

open Line (Reading isLabelChar)

namespace Buffer

variable {buffer next : Buffer} {above left right below : Text} {action : Action}
  {actions : List Action}

theorem At.buffer_eq (h : buffer.At above left right below) :
    buffer = ⟨above ++ (left ++ (right ++ below)), above.length + left.length⟩ := by
  obtain ⟨text, cursor⟩ := buffer
  rw [← h.text_eq, ← h.cursor_eq]

/-- A line that is the whole text. -/
theorem at_of_line {line : Text} (hline : '\n' ∉ line) {cursor : Nat}
    (hcursor : cursor ≤ line.length) :
    At ⟨line, cursor⟩ [] (line.take cursor) (line.drop cursor) [] where
  text_eq := by simp
  cursor_eq := by simp [hcursor]
  above_ends := .inl rfl
  left_line hmem := hline (List.mem_of_mem_take hmem)
  right_line hmem := hline (List.mem_of_mem_drop hmem)
  below_starts := .inl rfl

/-! ## Runs -/

theorem runChecked_cons (h : buffer.actChecked action = .ok next) :
    buffer.runChecked (action :: actions) = next.runChecked actions := by
  rw [runChecked, h]

@[simp] theorem runChecked_insertNewline (buffer : Buffer) (rest : List Action) :
    buffer.runChecked (.insertNewline :: rest) = (buffer.insert ['\n']).runChecked rest := rfl

@[simp] theorem runChecked_deleteRange (buffer : Buffer) (start stop : Int) (rest : List Action) :
    buffer.runChecked (.deleteRange start stop :: rest) =
      (buffer.delete start stop).runChecked rest := rfl

theorem runChecked_singleton (buffer : Buffer) (action : Action) :
    buffer.runChecked [action] = buffer.actChecked action := by
  rw [runChecked]
  split <;> simp [runChecked, *]

theorem runChecked_append (h : buffer.runChecked actions = .ok next) (more : List Action) :
    buffer.runChecked (actions ++ more) = next.runChecked more := by
  induction actions generalizing buffer with
  | nil =>
      obtain rfl := Except.ok.inj h
      rfl
  | cons action actions ih =>
      rw [runChecked] at h
      split at h
      · cases h
      · next step hstep =>
        rw [List.cons_append, runChecked_cons hstep]
        exact ih h

/-- The actions go through and leave the cursor in a line with these parts. -/
def Reaches (buffer : Buffer) (actions : List Action) (above left right below : Text) : Prop :=
  ∃ next, buffer.runChecked actions = .ok next ∧ next.At above left right below

theorem Reaches.runChecked_append {more : List Action} {outcome : Except TooWide Buffer}
    (h : buffer.Reaches actions above left right below)
    (hmore : ∀ next : Buffer, next.At above left right below → next.runChecked more = outcome) :
    buffer.runChecked (actions ++ more) = outcome := by
  obtain ⟨next, hnext, hat⟩ := h
  rw [Buffer.runChecked_append hnext]
  exact hmore next hat

/-! ## Gaps -/

/-- The number of spaces at the start of a text that a gap before it takes up. -/
def reused (gap : Int) (rest : Text) : Nat :=
  min gap.toNat (rest.takeWhile (· == ' ')).length

theorem reused_of_stops {rest : Text} (h : Text.Stops (· == ' ') rest) (gap : Int) :
    reused gap rest = 0 := by
  cases rest with
  | nil => simp [reused]
  | cons c rest =>
      rw [Text.stops_cons] at h
      simp [reused, h]

theorem reused_append (hbelow : StartsBreak below) (gap : Int) :
    reused gap (right ++ below) = reused gap right := by
  have hnone : below.takeWhile (· == ' ') = [] := by
    rcases hbelow with rfl | ⟨t, rfl⟩ <;> rfl
  rw [reused, reused, List.takeWhile_append, hnone, List.append_nil]
  split
  · next hall => rw [hall]
  · rfl

theorem reused_le (gap : Int) (rest : Text) : reused gap rest ≤ rest.length :=
  (Nat.min_le_right ..).trans (List.takeWhile_prefix _).length_le

/-- A gap of spaces between a front and the rest, with the cursor behind the gap.  There is none if
the spaces that the rest does not have already are more than a text can hold. -/
def gapped (front : Text) (gap : Int) (rest : Text) : Except TooWide Buffer :=
  if Text.maxRun < gap - reused gap rest then .error {}
  else .ok ⟨front ++ (Text.spaces gap ++ rest.drop (reused gap rest)), front.length + gap⟩

theorem gapped_of_stops {front rest : Text} (h : Text.Stops (· == ' ') rest) (gap : Int) :
    gapped front gap rest =
      if Text.maxRun < gap then .error {}
      else .ok ⟨front ++ (Text.spaces gap ++ rest), front.length + gap⟩ := by
  rw [gapped, reused_of_stops h]
  simp

theorem At.actChecked_back (h : buffer.At above left right below) {column : Nat}
    (hcolumn : column ≤ left.length) :
    buffer.actChecked (.moveToColumn column) = .ok (buffer.moveTo column) := by
  have hwide : ¬ Text.maxRun < (column : Int) - buffer.column -
      buffer.reusable ((column : Int) - buffer.column) := by
    have hmax : 0 < Text.maxRun := by decide
    rw [h.column_eq]
    omega
  rw [actChecked, if_neg hwide, act]

/-- A move that does not go back leaves the cursor behind the gap. -/
theorem At.moveOver (h : buffer.At above left right below) (gap : Nat) :
    (buffer.moveTo (left.length + gap)).At above (left ++ Text.spaces gap)
      (right.drop (reused gap right)) below := by
  by_cases hzero : gap = 0
  · have hstay := h.moveLeft (Nat.le_refl left.length)
    simpa [hzero, reused, Text.spaces] using hstay
  · exact h.moveRight (Nat.pos_of_ne_zero hzero)

theorem At.actChecked_over (h : buffer.At above left right below) (gap : Nat) :
    buffer.actChecked (.moveToColumn (left.length + gap)) =
      if Text.maxRun < (gap : Int) - reused gap right then .error {}
      else .ok (buffer.moveTo (left.length + gap)) := by
  have hcolumn : (left.length : Int) + gap - buffer.column = gap := by
    rw [h.column_eq]
    omega
  rw [actChecked, hcolumn, h.reusable_eq, act, reused, Int.toNat_natCast]

/-- A move that does not go back opens a gap. -/
theorem At.runChecked_move (h : buffer.At above left right below) {column gap : Int}
    (hcolumn : column = left.length + gap) (hgap : 0 ≤ gap) :
    buffer.runChecked [.moveToColumn column] = gapped (above ++ left) gap (right ++ below) := by
  obtain ⟨n, rfl⟩ := Int.eq_ofNat_of_zero_le hgap
  subst hcolumn
  have hdrop : (right ++ below).drop (reused n right) = right.drop (reused n right) ++ below :=
    List.drop_append_of_le_length (reused_le ..)
  rw [runChecked_singleton, h.actChecked_over, (h.moveOver n).buffer_eq, gapped,
    reused_append h.below_starts, hdrop]
  simp [Text.length_spaces, Int.add_assoc]

end Buffer

section Keys

open Buffer

variable {buffer : Buffer} {above left right below : Text} {s : Settings}

/-! ## The indentation -/

/-- A line is left alone if the blanks it starts with are the spaces up to the column. -/
theorem indentTo_eq_nil_iff {line : Text} {column : Int} (hcolumn : 0 ≤ column) :
    indentTo line column = [] ↔ line.takeWhile Text.isPad = Text.spaces column := by
  rw [indentTo]
  simp only [ite_eq_left_iff, reduceCtorEq, imp_false, Decidable.not_not]
  constructor
  · rintro ⟨hlength, htab⟩
    rw [Text.spaces, List.eq_replicate_iff]
    constructor
    · omega
    · intro c hc
      have hpad : Text.isPad c = true := List.mem_takeWhile_imp hc
      rw [Text.isPad, Bool.or_eq_true, beq_iff_eq, beq_iff_eq] at hpad
      apply hpad.resolve_right
      rintro rfl
      exact htab hc
  · intro hlead
    rw [hlead, Text.length_spaces]
    constructor
    · omega
    · simp [Text.spaces]

theorem runChecked_indent (h : buffer.At above left right below) {column : Int}
    (hcolumn : 0 ≤ column) (hsome : indentTo (left ++ right) column ≠ []) :
    buffer.runChecked (indentTo (left ++ right) column) =
      gapped above column ((left ++ right).dropWhile Text.isPad ++ below) := by
  have hmargin : (buffer.moveTo 0).At above [] (left ++ right) below := by
    simpa using h.moveLeft (Nat.zero_le left.length)
  have hdeleted : ((buffer.moveTo 0).delete 0 ((left ++ right).takeWhile Text.isPad).length).At
      above [] ((left ++ right).dropWhile Text.isPad) below := by
    rw [← List.takeWhile_append_dropWhile (p := Text.isPad) (l := left ++ right)] at hmargin
    exact hmargin.deleteBehind
  have hmoved := hdeleted.runChecked_move (show column = (0 : Nat) + column by simp) hcolumn
  have hback : buffer.actChecked (.moveToColumn 0) = .ok (buffer.moveTo 0) :=
    h.actChecked_back (Nat.zero_le left.length)
  rw [indentTo] at hsome ⊢
  rw [if_neg (by simpa using hsome), runChecked_cons hback, runChecked_deleteRange, hmoved,
    List.append_nil]

/-! ## Labels -/

theorem labelWord?_of_word {lead word trail : Text} (hlead : lead.allBlank = true)
    (htrail : trail.allBlank = true) (hne : word ≠ [])
    (hword : ∀ c ∈ word, isLabelChar c = true) :
    labelWord? (lead ++ word ++ trail) = some ⟨lead.length, word.length⟩ := by
  have hink : ∀ c ∈ word, Text.isBlank c = false := fun c hc =>
    Line.isBlank_of_isLabelChar (hword c hc)
  have htrimmed : (lead ++ word ++ trail).trimRight = lead ++ word := by
    rw [Text.trimRight_append, if_pos htrail, Text.trimRight_append_of_ink hne hink]
  have htail : Text.takeTail isLabelChar (lead ++ word) = word :=
    Text.takeTail_append_of_not
      (fun c hc => Line.isLabelChar_of_isBlank (Text.allBlank_iff.mp hlead c hc)) hword
  have hrest : Text.dropTail isLabelChar (lead ++ word) = lead := by
    have hsplit := Text.dropTail_append_takeTail isLabelChar (lead ++ word)
    rw [htail] at hsplit
    exact List.append_cancel_right hsplit
  simp only [labelWord?, htrimmed, htail, hrest]
  simp [hlead, hne]

theorem reaches_deleteTail {kept gone : Text} (h : buffer.At above (kept ++ gone) right below) :
    buffer.Reaches (if kept.length < (kept ++ gone).length then
      [.deleteRange kept.length (kept ++ gone).length] else []) above kept right below := by
  split
  · rw [← List.append_nil gone] at h
    have hdeleted := h.deleteBefore rfl (Eq.refl ((kept.length : Int) + gone.length))
    refine ⟨_, rfl, ?_⟩
    simpa [act] using hdeleted
  · next hnone =>
    have hnil : gone = [] := by
      rw [List.length_append] at hnone
      exact List.eq_nil_of_length_eq_zero (by omega)
    rw [hnil, List.append_nil] at h
    exact ⟨buffer, rfl, h⟩

theorem reaches_deleteLead {kept gone : Text} (h : buffer.At above (gone ++ kept) right below) :
    buffer.Reaches (if 0 < gone.length then [.deleteRange 0 gone.length] else [])
      above kept right below := by
  split
  · rw [← List.nil_append (gone ++ kept)] at h
    have hdeleted := h.deleteBefore rfl (Eq.refl ((0 : Int) + gone.length))
    refine ⟨_, rfl, ?_⟩
    simpa [act] using hdeleted
  · next hnone =>
    have hnil : gone = [] := List.eq_nil_of_length_eq_zero (by omega)
    rw [hnil, List.nil_append] at h
    exact ⟨buffer, rfl, h⟩

/-- The colon behind a label, if one is wanted. -/
def colonText (s : Settings) : Text :=
  if s.colonAfterLabel then [':'] else []

/-- The column that the cursor moves on to behind a label. -/
def jumpColumn (s : Settings) (label : Text) : Int :=
  if s.newlineAfterLabel then s.stops.first else s.stops.nextStop label.length

theorem reaches_colon (h : buffer.At above left right below) :
    buffer.Reaches (if s.colonAfterLabel then [.insertChar [':']] else [])
      above (left ++ colonText s) right below := by
  rw [colonText]
  split
  · exact ⟨_, rfl, h.insert [':'] (by decide)⟩
  · exact ⟨buffer, rfl, by simpa using h⟩

/-- The way from a label to the operation, in the same line or in the next one. -/
theorem runChecked_jump {label : Text} (h : buffer.At above label right below) (hs : s.Valid) :
    buffer.runChecked (if s.newlineAfterLabel then [.insertNewline, .moveToColumn s.stops.first]
        else [.moveToColumn (s.stops.nextStop label.length)]) =
      if s.newlineAfterLabel then
        gapped (above ++ (label ++ ['\n'])) s.stops.first (right ++ below)
      else
        gapped (above ++ label) (s.stops.nextStop label.length - label.length)
          (right ++ below) := by
  split
  · have hfirst : 0 < s.stops.first := TabStops.first_pos hs.width_pos
    have hmoved := h.insertNewline.runChecked_move
      (show s.stops.first = (0 : Nat) + s.stops.first by simp) (Int.le_of_lt hfirst)
    rw [runChecked_insertNewline, hmoved, List.append_nil]
  · have hnext : (label.length : Int) < s.stops.nextStop label.length :=
      TabStops.lt_nextStop hs.width_pos _
    apply h.runChecked_move
    · omega
    · omega

/-- A bare word becomes a label at the margin. -/
theorem runChecked_colon_of_word {lead word trail : Text}
    (h : buffer.At above left right below) (hs : s.Valid) (hleft : left = lead ++ word ++ trail)
    (hword : labelWord? left = some ⟨lead.length, word.length⟩) :
    let label := word ++ colonText s
    buffer.runChecked (colonKey s false (left ++ right) left.length) =
      if s.newlineAfterLabel then
        gapped (above ++ (label ++ ['\n'])) s.stops.first (right ++ below)
      else
        gapped (above ++ label) (s.stops.nextStop label.length - label.length)
          (right ++ below) := by
  subst hleft
  intro label
  have hlength : (if s.colonAfterLabel then word.length + 1 else word.length) = label.length := by
    simp only [label, colonText]
    split <;> simp
  simp only [colonKey, clamp_eq, List.take_left, hword, Bool.false_eq_true, if_false,
    hlength, ← List.length_append]
  rw [List.append_assoc, List.append_assoc]
  apply (reaches_deleteTail h).runChecked_append
  intro first hfirst
  apply (reaches_deleteLead hfirst).runChecked_append
  intro second hsecond
  apply (reaches_colon hsecond).runChecked_append
  intro third hthird
  exact runChecked_jump hthird hs

/-- The actions that make a label: blanks of the line go, a colon comes, and the cursor moves on. -/
theorem colonKey_of_word {lead word trail : Text} (hleft : left = lead ++ word ++ trail)
    (hword : labelWord? left = some ⟨lead.length, word.length⟩) :
    ∃ front : List Action,
      colonKey s false (left ++ right) left.length =
        front ++ [.moveToColumn (jumpColumn s (word ++ colonText s))] ∧
      ((left.length : Int) ≤ Text.maxRun → ∀ action ∈ front, action.isWritable = true) := by
  have hlength : (if s.colonAfterLabel then word.length + 1 else word.length) =
      (word ++ colonText s).length := by
    simp only [colonText]
    split <;> simp
  have hstop : lead.length + word.length ≤ left.length := by
    simp only [hleft, List.length_append]
    omega
  refine ⟨(if lead.length + word.length < left.length then
        [.deleteRange (lead.length + word.length : Nat) left.length] else []) ++
      (if 0 < lead.length then [.deleteRange 0 lead.length] else []) ++
      (if s.colonAfterLabel then [.insertChar [':']] else []) ++
      (if s.newlineAfterLabel then [.insertNewline] else []), ?_, ?_⟩
  · simp only [colonKey, clamp_eq, List.take_left, hword, Bool.false_eq_true, if_false, hlength,
      jumpColumn]
    cases s.newlineAfterLabel <;> simp
  · intro hheld
    have hcolumn : ∀ n : Nat, n ≤ left.length → Decimal.isWritable n = true :=
      fun n hn => Decimal.isWritable_natCast (by omega)
    have hone : ∀ (c : Prop) [Decidable c] (a : Action), a.isWritable = true →
        ∀ action ∈ if c then [a] else [], action.isWritable = true := by
      intro c _ a ha action hmem
      split at hmem
      · rwa [List.mem_singleton.mp hmem]
      · cases hmem
    simp only [List.forall_mem_append]
    refine ⟨⟨⟨hone _ _ ?_, hone _ _ ?_⟩, hone _ _ rfl⟩, hone _ _ rfl⟩
    · rw [Action.isWritable, hcolumn _ hstop, hcolumn _ le_rfl, Bool.and_self]
    · have hlead := hcolumn lead.length (by omega)
      have hzero := hcolumn 0 (Nat.zero_le _)
      rw [Action.isWritable, hlead, Bool.and_true]
      exact hzero

theorem colonKey_of_plain {inside : Bool} (hplain : labelWord? left = none ∨ inside = true) :
    colonKey s inside (left ++ right) left.length =
      if s.colonAfterLabel then [.insertChar [':']] else [] := by
  simp only [colonKey, clamp_eq, List.take_left]
  rcases hplain with hnone | rfl
  · rw [hnone]
  · simp only [if_true]
    split <;> rfl

theorem runChecked_colon_of_plain {inside : Bool} (h : buffer.At above left right below)
    (hplain : labelWord? left = none ∨ inside = true) :
    buffer.runChecked (colonKey s inside (left ++ right) left.length) =
      .ok ⟨above ++ (left ++ colonText s ++ (right ++ below)),
        above.length + (left ++ colonText s).length⟩ := by
  obtain ⟨next, hnext, hat⟩ := reaches_colon (s := s) h
  rw [colonKey_of_plain hplain, hnext, hat.buffer_eq]

/-! ## Comments that go on -/

/-- A run of delimiters and a space at a column, with the rest of a line behind them.  Spaces at the
start of the rest count towards the column. -/
def resumedLine (column : Nat) (run rest : Text) : Text :=
  Text.spaces column ++ (run ++ (' ' :: rest.drop (reused column rest)))

/-- From the margin of a line, a comment goes on at a column. -/
theorem runChecked_resume (h : buffer.At above [] right below) (column : Nat) (run : Text) :
    buffer.runChecked [.moveToColumn column, .insertText (run ++ [' '])] =
      if Text.maxRun < (column : Int) - reused column right then .error {}
      else .ok ⟨above ++ (resumedLine column run right ++ below),
        above.length + (column + run.length + 1)⟩ := by
  have hmove := h.actChecked_over column
  have hmoved := h.moveOver column
  simp only [List.length_nil, List.nil_append, Int.natCast_zero, Int.zero_add] at hmove hmoved
  split
  · next hwide =>
    rw [if_pos hwide] at hmove
    rw [runChecked, hmove]
  · next hfits =>
    rw [if_neg hfits] at hmove
    rw [runChecked_cons hmove, runChecked_singleton]
    change Except.ok (Buffer.insert _ _) = _
    rw [hmoved.insert_eq]
    simp [resumedLine, Int.add_assoc]

/-- In a new line the comment that the cursor is in goes on. -/
theorem runChecked_breakLine (h : buffer.At above left right below) (column : Nat) (run : Text) :
    buffer.runChecked [.insertNewline, .moveToColumn column, .insertText (run ++ [' '])] =
      if Text.maxRun < (column : Int) - reused column right then .error {}
      else .ok ⟨above ++ (left ++ ('\n' :: (resumedLine column run right ++ below))),
        above.length + left.length + 1 + (column + run.length + 1)⟩ := by
  rw [runChecked_insertNewline, runChecked_resume h.insertNewline]
  simp [Int.add_assoc]

/-- In the place of what stands before the cursor another line's comment goes on. -/
theorem runChecked_realign (h : buffer.At above left right below) (column : Nat) (run : Text) :
    buffer.runChecked
        [.deleteRange 0 left.length, .moveToColumn column, .insertText (run ++ [' '])] =
      if Text.maxRun < (column : Int) - reused column right then .error {}
      else .ok ⟨above ++ (resumedLine column run right ++ below),
        above.length + (column + run.length + 1)⟩ := by
  have hline : buffer.At above ([] ++ (left ++ [])) right below := by
    simpa using h
  have hdeleted := hline.deleteBefore rfl (Eq.refl ((0 : Int) + left.length))
  rw [Int.zero_add] at hdeleted
  rw [runChecked_deleteRange]
  exact runChecked_resume hdeleted column run

section delimiter

variable {r : Reading} {previous : Option Reading} {d : Char} {depth : Nat}

/-- Right behind the run that opens the comment of its line, the comment key breaks the line. -/
theorem delimiterKey_of_run {code : Text} (hleft : left = code ++ List.replicate depth d)
    (hdepth : depth ≠ 0) (hcode : Text.Stops (· == d) code.reverse)
    (hcomment : r.isCommentAt code.length = true)
    (houtside : insideComment r code.length = false) :
    delimiterKey d true r previous (left ++ right) left.length =
      [.insertNewline, .moveToColumn code.length,
        .insertText (List.replicate depth d ++ [' '])] := by
  have hrun : Text.takeTail (· == d) left = List.replicate depth d := by
    rw [hleft]
    apply Text.takeTail_append_of_stops hcode
    intro c hc
    simp [List.eq_of_mem_replicate hc]
  have hstart : left.length - (List.replicate depth d).length = code.length := by
    rw [hleft, List.length_append, Nat.add_sub_cancel]
  have hne : (List.replicate depth d).isEmpty = false := by
    simpa using hdepth
  simp only [delimiterKey, clamp_eq, List.take_left, hrun, hstart, hne, hcomment, houtside]
  rfl

/-- In the blanks before the text of a line, the comment key goes on with the comment above. -/
theorem delimiterKey_of_blanks {text : Text} {column : Nat}
    (habove : commentAbove? previous = some (text, column))
    (hopening : openingRun d text column = List.replicate depth d) (hne : left ≠ [])
    (hblank : Text.allBlank left = true) (hd : Text.isBlank d = false)
    (houtside : r.isCommentAt left.length = false) :
    delimiterKey d true r previous (left ++ right) left.length =
      [.deleteRange 0 left.length, .moveToColumn column,
        .insertText (List.replicate depth d ++ [' '])] := by
  have hrun : Text.takeTail (· == d) left = [] := by
    rw [← List.append_nil left]
    apply Text.takeTail_append_of_not _ (by simp)
    intro c hc
    rw [beq_eq_false_iff_ne]
    rintro rfl
    simp [Text.allBlank_iff.mp hblank c hc] at hd
  have hpos : 0 < left.length := List.length_pos_iff.mpr hne
  simp only [delimiterKey, clamp_eq, List.take_left, hrun, habove, hopening, hblank, houtside]
  simp [hpos]

end delimiter

end Keys

end Edit
end AsmColumns
