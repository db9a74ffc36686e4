import AsmColumns.Proofs.Line.Depth
import AsmColumns.Proofs.Session.Label

/-!
# Comments continued by the comment key

Right behind the run that opens a comment, the comment key breaks the line and starts the new line
with the same run at the same column.  In the blanks at the start of a line below a line of comment,
it puts the run of that line at the column of that line.  Both times the line so made is a line of
comment like the one that it goes on with.
-/

namespace AsmColumns

open Comment (Convention Style)
open Edit (Buffer insideComment resumedLine)
open Line (IsRemark Reading Trails readText remark)

/-! ## Comments of one character -/

namespace Comment

/-- A delimiter of one character opens comments that run to the end of the line. -/
theorem of_mark_singleton {style : Style} {d : Char} (h : (Convention.ofStyle style).mark = [d]) :
    style ≠ .blockSlashStar ∧ (Convention.ofStyle style).repeatable = true ∧
      (Convention.ofStyle style).repeatChar? = some d := by
  cases style with
  | lineSemicolon | lineHash | lineStar | lineAt =>
      cases h
      exact ⟨by decide, rfl, rfl⟩
  | blockSlashSlash | blockSlashStar => cases h

end Comment

namespace Line

/-- A line of comment that starts at a column with a run of this length. -/
structure Reading.IsRemarkAt (r : Reading) (column depth : Nat) : Prop where
  kind_eq : r.kind = .comment
  start_eq : r.commentStart? = some column
  depth_eq : r.depth = depth

section remark

variable {style : Style}

theorem IsRemark.isRemarkAt {lead rest : Text} {c : Char} {depth : Nat}
    (h : IsRemark style lead c depth rest) (continued : Bool) :
    (readText (.ofStyle style) continued (remark lead c depth rest)).IsRemarkAt
      lead.length depth :=
  ⟨h.kind_eq continued, h.commentStart?_eq continued, h.depth_eq continued⟩

/-- The line that the comment key makes is a line of comment. -/
theorem isRemarkAt_resumedLine {d : Char} (hmark : (Convention.ofStyle style).mark = [d])
    {depth : Nat} (hdepth : depth ≠ 0) (column : Nat) (rest : Text) (continued : Bool) :
    (readText (.ofStyle style) continued
      (resumedLine column (List.replicate depth d) rest)).IsRemarkAt column depth := by
  obtain ⟨-, -, hchar⟩ := Comment.of_mark_singleton hmark
  have hlong : (Convention.ofStyle style).mark.length ≤ depth := by
    rw [hmark, List.length_singleton]
    omega
  have hremark := isRemark_space (Text.allBlank_spaces column) hchar hlong
    (rest.drop (Buffer.reused column rest))
  have hline := hremark.isRemarkAt continued
  rwa [Text.length_spaces, Int.toNat_natCast] at hline

section trails

variable {code comment : Text} (hstyle : style ≠ .blockSlashStar)
  (h : Trails (.ofStyle style) code comment)
include hstyle h

theorem Trails.isCommentAt_start (continued : Bool) :
    (readText (.ofStyle style) continued (code ++ comment)).isCommentAt code.length = true := by
  obtain ⟨c, more, rfl, -⟩ := h.opens
  rw [Reading.isCommentAt, comments_readText, h.scan_eq (isBlock_eq_false hstyle)]
  simp [Span.containsAt, Span.contains, Span.stop]

theorem Trails.outside_start (continued : Bool) :
    insideComment (readText (.ofStyle style) continued (code ++ comment)) code.length = false := by
  rw [Edit.insideComment_eq (by rw [text_readText, List.length_append]; omega),
    Reading.isCommentAt, comments_readText, h.scan_eq (isBlock_eq_false hstyle)]
  simp only [List.any_cons, List.any_nil, Bool.or_false, Span.containsAt, Span.contains,
    Bool.and_eq_false_iff, decide_eq_false_iff_not]
  omega

end trails

end remark

end Line

/-! ## The actions of the key -/

namespace Edit

theorem clamp_le (line : Text) (cursor : Int) : clamp line cursor ≤ line.length :=
  Nat.min_le_right ..

/-- The key moves to columns of the line and of a comment above it only. -/
theorem isWritable_delimiterKey {line : Text} (hheld : (line.length : Int) ≤ Text.maxRun)
    {previous : Option Reading} (habove : ∀ above ∈ previous, ∀ span ∈ above.comments,
      Decimal.isWritable span.start = true)
    (d : Char) (repeatable : Bool) (r : Reading) (cursor : Int) :
    ∀ action ∈ delimiterKey d repeatable r previous line cursor, action.isWritable = true := by
  have hwritable : ∀ n ≤ line.length, Decimal.isWritable n = true :=
    fun n hn => Decimal.isWritable_natCast (by omega)
  have hhere := clamp_le line cursor
  rw [delimiterKey]
  dsimp only
  split
  · simp [Action.isWritable, hwritable _ (Nat.le_trans (Nat.sub_le ..) hhere)]
  · have hinner : ∀ action ∈ (if insideComment r (clamp line cursor) then
        [Action.insertChar [d]] else [.delegate "comment-dwim".toList]),
        action.isWritable = true := by
      split <;> simp [Action.isWritable]
    split
    · next text column hcolumn =>
      split
      · -- The column is the one where the first comment above starts.
        obtain ⟨above, hprevious, span, hspan, rfl⟩ :
            ∃ above ∈ previous, ∃ span ∈ above.comments, span.start = column := by
          unfold commentAbove? at hcolumn
          split at hcolumn
          · next above =>
            split at hcolumn
            · next span rest hkind hcomments =>
              cases hcolumn
              exact ⟨above, rfl, span, by simp [hcomments], rfl⟩
            · cases hcolumn
          · cases hcolumn
        have hzero := hwritable 0 (Nat.zero_le _)
        rw [Int.natCast_zero] at hzero
        simp [Action.isWritable, hzero, hwritable _ hhere, habove above hprevious span hspan]
      · exact hinner
    · exact hinner

section key

variable {style : Style} {d : Char} {line : Text} {cursor : Nat} {continued : Bool}
  {previous : Option Reading} (hmark : (Convention.ofStyle style).mark = [d])
  (hline : '\n' ∉ line) (hcursor : cursor ≤ line.length)
include hmark hline hcursor

/-- The key right behind the run that opens a comment. -/
theorem runChecked_comment_of_run (hheld : (line.length : Int) ≤ Text.maxRun) {code : Text}
    {depth : Nat} (htake : line.take cursor = code ++ List.replicate depth d) (hdepth : depth ≠ 0)
    (hlast : code.getLast? ≠ some d)
    (hstart : (readText (.ofStyle style) continued line).commentStart? = some code.length) :
    (∀ action ∈ delimiterKey d true (readText (.ofStyle style) continued line) previous line cursor,
      action.isWritable = true) ∧
    Buffer.runChecked ⟨line, cursor⟩
        (delimiterKey d true (readText (.ofStyle style) continued line) previous line cursor) =
      .ok ⟨line.take cursor ++
          '\n' :: resumedLine code.length (List.replicate depth d) (line.drop cursor),
        cursor + 1 + (code.length + depth + 1)⟩ ∧
    ∀ again, (readText (.ofStyle style) again (line.take cursor)).commentStart? =
      some code.length := by
  have hsharp := Comment.sharp_ofStyle style
  obtain ⟨hstyle, -, -⟩ := Comment.of_mark_singleton hmark
  have hlength : (line.take cursor).length = cursor := List.length_take_of_le hcursor
  have hshape : line = code ++ (List.replicate depth d ++ line.drop cursor) := by
    conv_lhs => rw [← List.take_append_drop cursor line, htake, List.append_assoc]
  have hcode : Text.Stops (· == d) code.reverse := by
    intro c hc
    rw [List.head?_reverse] at hc
    rw [beq_eq_false_iff_ne]
    rintro rfl
    exact hlast hc
  rw [hshape] at hstart
  have htrails : Trails (.ofStyle style) code (List.replicate depth d ++ line.drop cursor) :=
    (Line.commentStart?_eq_iff hsharp (Line.isBlock_eq_false hstyle)).mp hstart
  have hcomment := htrails.isCommentAt_start hstyle continued
  have houtside := htrails.outside_start hstyle continued
  rw [← hshape] at hcomment houtside
  have hkey : delimiterKey d true _ previous (line.take cursor ++ line.drop cursor) _ = _ :=
    delimiterKey_of_run htake hdepth hcode hcomment houtside
  rw [List.take_append_drop, hlength] at hkey
  have hle : code.length ≤ line.length := by
    rw [hshape, List.length_append]
    omega
  rw [hkey]
  refine ⟨?_, ?_, ?_⟩
  · have hwritable : Decimal.isWritable code.length = true :=
      Decimal.isWritable_natCast (by omega)
    simp [Action.isWritable, hwritable]
  · have hwide : ¬ Text.maxRun < (code.length : Int) -
        Buffer.reused code.length (line.drop cursor) := by
      omega
    have hrun := runChecked_breakLine (Buffer.at_of_line hline hcursor) code.length
      (List.replicate depth d)
    rw [hrun, if_neg hwide, hlength]
    simp
  · -- Cutting the comment behind its run takes no partner from a quote of the code, for one that
    -- the code waits for would have kept the comment from opening.
    intro again
    have hrun : (Convention.ofStyle style).mark <+: List.replicate depth d := by
      obtain ⟨more, rfl⟩ := Nat.exists_eq_succ_of_ne_zero hdepth
      rw [hmark, List.replicate_succ, List.cons_prefix_cons]
      exact ⟨rfl, List.nil_prefix⟩
    have hunquoted : '\'' ∈ List.replicate depth d → '\'' ∈ List.replicate depth d ++
        line.drop cursor ∨ Comment.awaitsQuote {} none code = false :=
      fun hquote => .inl (List.mem_append_left _ hquote)
    rw [htake]
    exact (htrails.reread hsharp hrun hunquoted).commentStart? (Line.isBlock_eq_false hstyle)

omit hmark in
/-- The key in the blanks below a line of comment. -/
theorem runChecked_comment_of_blanks {lead rest : Text} {depth : Nat} {entered : Bool}
    (hremark : IsRemark style lead d depth rest) (hheld : (lead.length : Int) ≤ Text.maxRun)
    (hpos : 0 < cursor) (hblank : Text.allBlank (line.take cursor) = true)
    (houtside : (readText (.ofStyle style) continued line).isCommentAt cursor = false) :
    Buffer.runChecked ⟨line, cursor⟩
        (delimiterKey d true (readText (.ofStyle style) continued line)
          (some (readText (.ofStyle style) entered (remark lead d depth rest))) line cursor) =
      .ok ⟨resumedLine lead.length (List.replicate depth d) (line.drop cursor),
        lead.length + depth + 1⟩ := by
  have hlength : (line.take cursor).length = cursor := List.length_take_of_le hcursor
  have habove : commentAbove?
      (some (readText (.ofStyle style) entered (remark lead d depth rest))) =
        some (remark lead d depth rest, lead.length) := by
    simp only [commentAbove?, hremark.kind_eq, hremark.comments_eq, Line.text_readText]
  have hopening : openingRun d (remark lead d depth rest) lead.length =
      List.replicate depth d := by
    have hne : (List.replicate depth d).isEmpty = false := by
      simpa using hremark.depth_pos.ne'
    rw [openingRun, remark, List.drop_left, hremark.takeWhile_eq]
    simp only [hne, Bool.false_eq_true, if_false]
  have hne : line.take cursor ≠ [] := by
    rw [← List.length_pos_iff, hlength]
    exact hpos
  rw [← hlength] at houtside
  have hkey : delimiterKey d true _ _ (line.take cursor ++ line.drop cursor) _ = _ :=
    delimiterKey_of_blanks habove hopening hne hblank hremark.char_ink houtside
  have hwide : ¬ Text.maxRun < (lead.length : Int) -
      Buffer.reused lead.length (line.drop cursor) := by
    omega
  have hrun := runChecked_realign (Buffer.at_of_line hline hcursor) lead.length
    (List.replicate depth d)
  rw [List.take_append_drop, hlength] at hkey
  rw [hlength] at hrun
  rw [hkey, hrun, if_neg hwide]
  simp

end key

end Edit

/-! ## The key in a session -/

namespace Session

variable {s : Session} {line : Text} {cursor : Nat} {d : Char}

theorem comment_eq (hmark : s.convention.mark = [d]) (line : Text) (cursor : Nat)
    (previous : Option Reading) (continued : Bool) :
    (s.comment (some line) cursor previous continued).1 =
      noted (Edit.delimiterKey d s.convention.repeatable (s.read (some line) continued).1 previous
        line cursor) := by
  have hconv : (s.read (some line) continued).2.convention = s.convention := rfl
  have hdelimiter : Edit.delimiterOf s.convention = .ok d := by rw [Edit.delimiterOf, hmark]
  simp only [comment, hdelimiter, hconv]

theorem settings_comment (s : Session) (line : Text) (cursor : Nat) (previous : Option Reading)
    (continued : Bool) :
    (s.comment (some line) cursor previous continued).2.settings = s.settings := by
  rw [comment]
  dsimp only
  split <;> rfl

/-- What the comment key makes of the run that opens a comment, and of the blanks below a line of
comment.  No text is longer than the longest run of spaces, and neither are the two lines.  The key
never fails below a line whose comments start at columns that can be written out. -/
theorem comment_resumes (hs : s.Reachable) (hmark : s.convention.mark = [d]) (hline : '\n' ∉ line)
    (hheld : (line.length : Int) ≤ Text.maxRun) (hcursor : cursor ≤ line.length)
    (continued : Bool) (previous : Option Reading) :
    let r := (s.read (some line) continued).1
    let rest := line.drop cursor
    let outcome := (s.comment (some line) cursor previous continued).1
    let after := (s.comment (some line) cursor previous continued).2
    ((∀ above ∈ previous, ∀ span ∈ above.comments, Decimal.isWritable span.start = true) →
      ∃ actions, outcome = .ok actions) ∧
    (∀ code depth, line.take cursor = code ++ List.replicate depth d → depth ≠ 0 →
      code.getLast? ≠ some d → r.commentStart? = some code.length →
      let lower := resumedLine code.length (List.replicate depth d) rest
      ∃ actions, outcome = .ok actions ∧
        Buffer.runChecked ⟨line, cursor⟩ actions =
          .ok ⟨line.take cursor ++ '\n' :: lower, cursor + 1 + (code.length + depth + 1)⟩ ∧
        ∀ again,
          (after.read (some (line.take cursor)) again).1.commentStart? = some code.length ∧
            (after.read (some lower) again).1.IsRemarkAt code.length depth) ∧
    (∀ upper entered, previous = some (s.read (some upper) entered).1 →
      (s.read (some upper) entered).1.kind = .comment →
      (upper.length : Int) ≤ Text.maxRun → 0 < cursor →
      Text.allBlank (line.take cursor) = true → r.isCommentAt cursor = false →
      ∃ column depth, (s.read (some upper) entered).1.IsRemarkAt column depth ∧
        let new := resumedLine column (List.replicate depth d) rest
        ∃ actions, outcome = .ok actions ∧
          Buffer.runChecked ⟨line, cursor⟩ actions = .ok ⟨new, column + depth + 1⟩ ∧
          ∀ again, (after.read (some new) again).1.IsRemarkAt column depth) := by
  intro r rest outcome after
  have h := hs.coherent
  have hconv : s.convention = .ofStyle s.settings.style := h.convention_eq
  have hread : ∀ (text : Text) again, (s.read (some text) again).1 =
      Line.readText (.ofStyle s.settings.style) again text := by
    intro text again
    rw [h.read_eq, Settings.read_eq]
  have hafter : ∀ (text : Text) again, (after.read (some text) again).1 =
      Line.readText (.ofStyle s.settings.style) again text := by
    intro text again
    have hcoherent : after.Coherent :=
      h.perform (.comment (some line) cursor previous continued)
    rw [hcoherent.read_eq, Settings.read_eq, settings_comment]
  have hkey := comment_eq hmark line cursor previous continued
  rw [hconv] at hmark
  obtain ⟨hstyle, hrepeatable, -⟩ := Comment.of_mark_singleton hmark
  rw [hconv, hrepeatable, hread] at hkey
  simp only [r, outcome, hread, hafter, hkey]
  refine ⟨?_, ?_, ?_⟩
  · intro habove
    exact ⟨_, noted_eq_ok (Edit.isWritable_delimiterKey hheld habove _ _ _ _)⟩
  · intro code depth htake hdepth hlast hstart
    obtain ⟨hwritable, hrun, hupper⟩ := Edit.runChecked_comment_of_run hmark hline hcursor hheld
      htake hdepth hlast hstart
    exact ⟨_, noted_eq_ok hwritable, hrun, fun again =>
      ⟨hupper again, Line.isRemarkAt_resumedLine hmark hdepth code.length rest again⟩⟩
  · rintro upper entered rfl hkind hupper hpos hblank houtside
    obtain ⟨lead, c, depth, more, rfl, hremark⟩ := Line.exists_isRemark hstyle hkind
    obtain ⟨-, -, hchar⟩ := Comment.of_mark_singleton hmark
    obtain rfl : d = c := Option.some.inj (hchar.symm.trans hremark.repeats)
    have hlead : (lead.length : Int) ≤ Text.maxRun := by
      rw [remark, List.length_append] at hupper
      omega
    have habove : ∀ above ∈ some (Line.readText (.ofStyle s.settings.style) entered
        (remark lead d depth more)), ∀ span ∈ above.comments,
          Decimal.isWritable span.start = true := by
      rintro above ⟨⟩ span hspan
      rw [hremark.comments_eq, List.mem_singleton] at hspan
      rw [hspan]
      exact Decimal.isWritable_natCast hlead
    refine ⟨lead.length, depth, hremark.isRemarkAt entered, _,
      noted_eq_ok (Edit.isWritable_delimiterKey hheld habove _ _ _ _), ?_, fun again => ?_⟩
    · exact Edit.runChecked_comment_of_blanks hline hcursor hremark hlead hpos hblank houtside
    · exact Line.isRemarkAt_resumedLine hmark hremark.depth_pos.ne' lead.length rest again

/-- A comment behind a quoted delimiter goes on in a new line, which takes over three spaces, and a
documentation comment behind a tab goes on in the line below it, which takes over one. -/
theorem comment_resumes_behind_quotes :
    let s := ofSettings {}
    let line := " db ';' ;;   it's".toList
    let blanks := "    x".toList
    let above := (s.read (some "\t;;; a".toList) false).1
    s.Reachable ∧ s.convention.mark = [';'] ∧
      (∃ actions, (s.comment (some line) 10 none false).1 = .ok actions ∧
        Buffer.runChecked ⟨line, 10⟩ actions =
          .ok ⟨" db ';' ;;\n        ;; it's".toList, 22⟩) ∧
      ∃ actions, (s.comment (some blanks) 2 (some above) false).1 = .ok actions ∧
        Buffer.runChecked ⟨blanks, 2⟩ actions = .ok ⟨" ;;;  x".toList, 5⟩ := by
  intro s line blanks above
  have hs : s.Reachable := reachable_ofSettings Settings.valid_default
  have hmark : s.convention.mark = [';'] := rfl
  have hread : ∀ text : Text, (s.read (some text) false).1 = Settings.read {} false text :=
    fun text => hs.coherent.read_eq text false
  refine ⟨hs, hmark, ?_, ?_⟩
  · obtain ⟨-, hbreak, -⟩ :=
      @comment_resumes s line 10 ';' hs hmark (by decide) (by decide) (by decide) false none
    have hstart : (s.read (some line) false).1.commentStart? = some 8 := by
      rw [hread]
      decide +kernel
    obtain ⟨actions, hactions, hrun, -⟩ :=
      hbreak " db ';' ".toList 2 (by decide) (by decide) (by decide) hstart
    exact ⟨actions, hactions, hrun⟩
  · have hremark : IsRemark .lineSemicolon "\t".toList ';' 3 " a".toList :=
      Line.isRemark_space (by decide) rfl (by decide) ['a']
    have habove : above.IsRemarkAt 1 3 := by
      simp only [above]
      rw [hread, Settings.read_eq]
      exact hremark.isRemarkAt false
    have houtside : (s.read (some blanks) false).1.isCommentAt 2 = false := by
      rw [hread]
      decide +kernel
    obtain ⟨-, -, hrealign⟩ :=
      @comment_resumes s blanks 2 ';' hs hmark (by decide) (by decide) (by decide) false
        (some above)
    obtain ⟨column, depth, hat, actions, hactions, hrun, -⟩ :=
      hrealign "\t;;; a".toList false rfl habove.kind_eq (by decide) (by decide) (by decide)
        houtside
    obtain rfl : column = 1 := Option.some.inj (hat.start_eq.symm.trans habove.start_eq)
    obtain rfl : depth = 3 := Int.ofNat.inj (hat.depth_eq.symm.trans habove.depth_eq)
    exact ⟨actions, hactions, hrun⟩

end Session
end AsmColumns
