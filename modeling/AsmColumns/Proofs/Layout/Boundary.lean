import AsmColumns.Proofs.Layout.Lines
import AsmColumns.Proofs.Layout.Seam

/-!
# The boundary between code and comment

Laying out a line must not turn code into comment or comment into code.  What is compared is the
ink of the comments and whether the line leaves a comment open.

Indenting a line as a whole keeps both.  Setting a line in columns keeps them too unless it tears a
seam.  A star behind the seam then turns the rest of the line into a comment.  A quote behind the
seam opens a quotation, so that the rest of the line is read from inside quotes, and the boundary
stays only if that reading happens to find the same comments.
-/

namespace AsmColumns
namespace Layout

open Comment (Convention Quoting Scans Walks advance blanked marked scan scanFrom isPlain lastOf)
open Line (Front Fits Kind Reading IsCut Marked readText unsorted)
open Text (isBlank isWord allBlank ink)

def commentInk (r : Reading) : Text :=
  ink (r.comments.flatMap (·.of r.text))

/-- The ink of the comments in a text that is scanned from a state on, and whether the last of them
is left open. -/
def findings (conv : Convention) (state : Quoting) (before : Option Char) (text : Text) :
    Text × Bool :=
  let regions := scanFrom conv 0 state before 0 text
  (ink (regions.spans.flatMap (·.of text)), regions.leftOpen)

/-- The line from an offset in its code on, with a blank put before its first comment. -/
def restOfLine (r : Reading) (offset : Nat) : Text :=
  match r.commentStart? with
  | none => r.text.drop offset
  | some start => r.text.slice offset start ++ ' ' :: r.text.drop start

/-- Whether the layout of the line has other comments than the line. -/
def movesBoundary (conv : Convention) (r : Reading) : Bool :=
  tears conv r && (seam? r).any fun i =>
    (r.text.drop i).head? == some '*' ||
      findings conv ⟨.single, false⟩ (some '\'') (restOfLine r (i + 1)) !=
        (commentInk r, r.endsOpen)

theorem movesBoundary_of_seam {conv : Convention} {r : Reading} {i : Nat} {c : Char} {rest : Text}
    (htears : tears conv r = true) (hseam : seam? r = some i) (hdrop : r.text.drop i = c :: rest) :
    movesBoundary conv r =
      (c == '*' || findings conv ⟨.single, false⟩ (some '\'') (restOfLine r (i + 1)) !=
        (commentInk r, r.endsOpen)) := by
  rw [movesBoundary, htears, hseam, Option.any_some, hdrop]
  rfl

/-! ## What a scan finds -/

section findings

variable {conv : Convention} {state last : Quoting} {before : Option Char}
  {front rest s t gap : Text} {marks : List Bool} {leftOpen : Bool}

theorem findings_of_scans (h : Scans conv (.code state before) t marks leftOpen) :
    findings conv state before t = (ink (marked marks t), leftOpen) := by
  obtain ⟨marks', hscans, hspells⟩ :=
    Comment.exists_scans_of_scanFrom 0 state before 0 t
  have hcode : Scans conv (.code state before) t marks'
      (scanFrom conv 0 state before 0 t).leftOpen := by
    simpa using hscans
  obtain ⟨rfl, hopen⟩ := h.unique hcode
  have hspans := @Comment.Spells.flatMap_of 0 marks _ [] t hspells rfl h.length_marks
  rw [List.nil_append] at hspans
  rw [findings, hspans, hopen]

theorem findings_of_walks (h : Walks conv state before front rest last) :
    findings conv state before (front ++ rest) = findings conv last (lastOf before front) rest := by
  obtain ⟨marks, leftOpen, hrest⟩ :=
    Comment.exists_scans_code conv last (lastOf before front) rest
  rw [findings_of_scans (h.scans hrest), findings_of_scans hrest,
    Comment.marked_append List.length_replicate, Comment.marked_replicate_false, List.nil_append]

theorem findings_regap (hsharp : conv.Sharp) (hne : gap ≠ []) (hgap : allBlank gap = true) :
    findings conv state before (s ++ (gap ++ t)) = findings conv state before (s ++ ' ' :: t) := by
  obtain ⟨marks, leftOpen, hscans⟩ :=
    Comment.exists_scans_code conv state before (s ++ ' ' :: t)
  obtain ⟨d, gap, rfl⟩ := List.exists_cons_of_ne_nil hne
  rw [Text.allBlank_cons, Bool.and_eq_true] at hgap
  obtain ⟨marks', hwide, hink⟩ := hscans.regap hsharp rfl hgap.1 hgap.2 s rfl
  rw [findings_of_scans hscans, ← hink]
  exact findings_of_scans hwide

theorem ink_marked_of_allBlank (marks : List Bool) (h : allBlank t = true) :
    ink (marked marks t) = [] := by
  rw [Text.ink_eq_nil_iff, Text.allBlank_iff]
  intro c hc
  exact Text.allBlank_iff.mp h c ((Comment.marked_sublist marks t).subset hc)

theorem length_ink_marked_le (marks : List Bool) (t : Text) :
    (ink (marked marks t)).length ≤ (ink t).length :=
  ((Comment.marked_sublist marks t).filter _).length_le

theorem ink_marked_trail (hlength : marks.length = s.length) (later : List Bool)
    (hz : allBlank t = true) :
    ink (marked (marks ++ later) (s ++ t)) = ink (marked marks s) := by
  rw [Comment.marked_append hlength, Text.ink_append, ink_marked_of_allBlank _ hz, List.append_nil]

theorem findings_trail (hsharp : conv.Sharp) (hz : allBlank t = true) :
    findings conv state before (s ++ t) = findings conv state before s := by
  obtain ⟨marks, leftOpen, hscans⟩ := Comment.exists_scans_code conv state before s
  obtain ⟨mark, htrail⟩ := hscans.trail hsharp hz
  rw [findings_of_scans hscans, findings_of_scans htrail,
    ink_marked_trail hscans.length_marks _ hz]

theorem findings_of_quote (hsharp : conv.Sharp) {later : Text}
    (hfront : ∀ c ∈ front, isPlain c = true ∨ isBlank c = true)
    (hbefore : (lastOf none front).all isBlank = true)
    (hquote : '\'' ∈ later) :
    findings conv {} none (front ++ '\'' :: later) =
      findings conv ⟨.single, false⟩ (some '\'') later := by
  have hadvance : advance conv {} (lastOf none front) '\'' later = some ⟨.single, false⟩ := by
    have hword := Comment.any_isWord_of_all_isBlank hbefore
    simp [advance, Quoting.step, hword, hquote]
  rw [findings_of_walks (Walks.plain hsharp hfront)]
  exact findings_of_walks (.cons hadvance .nil)

/-- Blanks at the end of the code and at the end of the line make no difference. -/
theorem findings_close (hsharp : conv.Sharp) {pad tail : Text} (hne : tail ≠ [] → pad ≠ [])
    (hpad : allBlank pad = true) :
    findings conv state before (if tail = [] then s else s ++ ' ' :: tail) =
      findings conv state before (s.trimRight ++ (pad ++ tail.trimRight)) := by
  have hblank := Text.allBlank_takeTail s
  split
  · next htail =>
    subst htail
    conv_lhs => rw [← Text.trimRight_eq s, findings_trail hsharp hblank]
    rw [show pad ++ Text.trimRight [] = pad from List.append_nil pad, findings_trail hsharp hpad]
  · next htail =>
    have hgap : s.takeTail isBlank ++ [' '] ≠ [] := by simp
    have hcut : s ++ ' ' :: tail = s.trimRight ++ ((s.takeTail isBlank ++ [' ']) ++ tail) := by
      conv_lhs => rw [← Text.trimRight_eq s]
      simp
    have hends : s.trimRight ++ ' ' :: tail =
        (s.trimRight ++ ' ' :: tail.trimRight) ++ tail.takeTail isBlank := by
      conv_lhs => rw [← Text.trimRight_eq tail]
      simp
    rw [hcut, findings_regap hsharp hgap (by simp [hblank]), hends,
      findings_trail hsharp (Text.allBlank_takeTail tail), findings_regap hsharp (hne htail) hpad]

end findings

/-! ## Lines that are indented as a whole -/

section line

variable {conv : Convention} {continued : Bool} {text lead z : Text} {marks : List Bool}
  {leftOpen : Bool}

theorem boundary_of_scans (h : Scans conv (.entry conv continued) text marks leftOpen) :
    commentInk (readText conv continued text) = ink (marked marks text) ∧
      (readText conv continued text).endsOpen = leftOpen := by
  obtain ⟨hmarked, hopen⟩ := Line.marked_of_scans h
  have hspans := @Comment.Spells.flatMap_of 0 marks _ [] text hmarked.spells rfl h.length_marks
  rw [List.nil_append] at hspans
  rw [commentInk, Line.comments_readText, Line.text_readText, hspans, Line.endsOpen_readText]
  exact ⟨rfl, hopen⟩

theorem findings_readText
    (hentry : Comment.Mode.entry conv continued = .code {} none) (text : Text) :
    (commentInk (readText conv continued text), (readText conv continued text).endsOpen) =
      findings conv {} none text := by
  obtain ⟨marks, leftOpen, hscans⟩ := Comment.exists_scans_code conv {} none text
  rw [findings_of_scans hscans]
  rw [← hentry] at hscans
  obtain ⟨hink, hopen⟩ := boundary_of_scans hscans
  rw [hink, hopen]

theorem boundary_of_ends (hsharp : conv.Sharp) (hlead : allBlank lead = true)
    (hz : allBlank z = true) (text : Text) :
    commentInk (readText conv continued (lead ++ (text ++ z))) =
        commentInk (readText conv continued text) ∧
      (readText conv continued (lead ++ (text ++ z))).endsOpen =
        (readText conv continued text).endsOpen := by
  obtain ⟨marks, h⟩ := Line.exists_marked conv continued text
  obtain ⟨hold, holdOpen⟩ := boundary_of_scans h.scans
  obtain ⟨mark, htrail⟩ := h.scans.trail hsharp hz
  obtain ⟨hnew, hnewOpen⟩ := boundary_of_scans (htrail.lead_entry hsharp hlead)
  rw [hnew, hnewOpen, hold, holdOpen, Comment.marked_append (by simp), Text.ink_append,
    ink_marked_of_allBlank _ hlead, ink_marked_trail h.scans.length_marks _ hz]
  exact ⟨rfl, rfl⟩

theorem boundary_of_isRigid (hsharp : conv.Sharp) (stops : TabStops) (column commentColumn : Int)
    (hrigid : isRigid (readText conv continued text) = true) :
    let new := line conv stops column commentColumn (readText conv continued text)
    commentInk (readText conv continued new) = commentInk (readText conv continued text) ∧
      (readText conv continued new).endsOpen = (readText conv continued text).endsOpen := by
  intro new
  obtain ⟨lead, hlead, hnew⟩ := exists_lead stops column commentColumn hrigid
  have hnewEnds := @boundary_of_ends conv continued lead [] hsharp hlead rfl text.trim
  rw [List.append_nil, ← hnew] at hnewEnds
  have holdEnds := @boundary_of_ends conv continued _ _ hsharp (Text.allBlank_takeWhile text)
    (Text.allBlank_takeTail text.trimLeft) text.trim
  rw [Text.lead_trim_tail] at holdEnds
  exact ⟨hnewEnds.1.trans holdEnds.1.symm, hnewEnds.2.trans holdEnds.2.symm⟩

end line

/-! ## Lines that are set in columns -/

section cut

variable {conv : Convention} {continued : Bool} {text body tail rest : Text} {kind : Kind}
  {f : Front} {tailMarks : List Bool}
  (h : IsCut conv continued text kind f body tail tailMarks)
include h

theorem boundary_of_cut :
    commentInk (readText conv continued text) = ink (marked tailMarks tail) := by
  have hscans := h.marked.scans
  rw [(boundary_of_scans hscans).1]
  conv_lhs => rw [h.text_eq]
  rw [Comment.marked_append List.length_replicate, Comment.marked_replicate_false, List.nil_append]

/-- Without a seam that is torn, the comments are those of the line. -/
theorem boundary_of_not_tears (hsharp : conv.Sharp)
    (hfree : tears conv (readText conv continued text) = false) {column : Int}
    (hcolumn : f.margin ≠ [] → (f.margin.length : Int) < column) (commentColumn : Int) :
    let new := setFront f column commentColumn body tail ++ tail.trimRight
    commentInk (readText conv continued new) = commentInk (readText conv continued text) ∧
      (readText conv continued new).endsOpen = (readText conv continued text).endsOpen := by
  intro new
  obtain ⟨marks, mark, hscans, htailMarks⟩ := scans_line h hsharp hfree hcolumn commentColumn
  rw [← h.entry_eq] at hscans
  obtain ⟨hnew, hopen⟩ := boundary_of_scans hscans
  have hlength : marks.length = tail.trimRight.length := by
    have := hscans.length_marks
    simp only [List.length_append, List.length_replicate] at this
    omega
  have hold : ink (marked tailMarks tail) = ink (marked marks tail.trimRight) := by
    conv_lhs => rw [htailMarks, ← Text.trimRight_eq tail]
    exact ink_marked_trail hlength _ (Text.allBlank_takeTail tail)
  rw [hnew, hopen, boundary_of_cut h, hold, Line.endsOpen_readText,
    Comment.marked_append List.length_replicate, Comment.marked_replicate_false, List.nil_append]
  exact ⟨rfl, rfl⟩

/-! ## Lines with a seam that is torn -/

theorem ne_of_star (hsharp : conv.Sharp) (hstyle : conv.style = .lineStar) {front later : Text}
    (hfront : ∀ c ∈ front, isPlain c = true ∨ isBlank c = true)
    (hbefore : (lastOf none front).all isBlank = true)
    (hlater : (ink tail).length ≤ (ink later).length) :
    commentInk (readText conv continued (front ++ '*' :: later)) ≠
      commentInk (readText conv continued text) := by
  have hnone : advance conv {} (lastOf none front) '*' later = none := by
    rw [Comment.advance_eq_none_iff]
    refine ⟨rfl, ?_⟩
    simp [Comment.opensAt, hsharp.mark_star hstyle, hbefore]
  have hscans := (Walks.plain hsharp hfront).scans (.line hnone (hsharp.isBlock_star hstyle))
  rw [← h.entry_eq] at hscans
  rw [(boundary_of_scans hscans).1, boundary_of_cut h,
    Comment.marked_append List.length_replicate, Comment.marked_replicate_false, List.nil_append,
    ← List.length_cons, Comment.marked_replicate_true]
  intro heq
  have hlength := congrArg List.length heq
  have hle := length_ink_marked_le tailMarks tail
  rw [Text.ink_cons_of_not_blank (by decide), List.length_cons] at hlength
  omega

theorem restOfLine_eq {c : Char} {more : Text} (hbody : body = c :: more) :
    restOfLine (readText conv continued text) (f.text.length + 1) =
      if tail = [] then more else more ++ ' ' :: tail := by
  have htext : text = (f.text ++ [c]) ++ (more ++ tail) := by
    rw [h.text_eq, hbody]
    simp
  have hdrop : text.drop (f.text.length + 1) = more ++ tail := by
    rw [htext, List.drop_left' (by simp)]
  rw [restOfLine, h.commentStart?, Line.text_readText]
  by_cases htail : tail = []
  · simp [htail, hdrop]
  · have hstart : (f.text ++ body).length = f.text.length + 1 + more.length := by
      simp [hbody, Nat.add_assoc, Nat.add_comm]
    simp only [htail, if_false, Text.slice, hdrop, hstart, Nat.add_sub_cancel_left,
      List.take_left]
    rw [← List.drop_drop, hdrop, List.drop_left]

theorem boundary_of_label_tears (hsharp : conv.Sharp) (hkind : kind = .label)
    (htears : tears conv (readText conv continued text) = true) {column : Int}
    (hcolumn : f.margin ≠ [] → (f.margin.length : Int) < column) (commentColumn : Int) :
    commentInk (readText conv continued
        (setFront f column commentColumn body tail ++ tail.trimRight)) ≠
        commentInk (readText conv continued text) ∧
      movesBoundary conv (readText conv continued text) = true := by
  have hfits := h.fits
  have hhead := head_ne_nil_of_tears h htears
  have hrereads := htears
  rw [tears_of_label h hhead hkind, Bool.and_eq_true, List.isEmpty_iff] at hrereads
  obtain ⟨hgap, hrereads⟩ := hrereads
  obtain ⟨c, more, hmore⟩ := List.exists_cons_of_ne_nil hhead
  rw [hmore, List.cons_append, rereads_iff] at hrereads
  obtain ⟨rfl, hstyle⟩ := hrereads.resolve_right (by simp)
  constructor
  · obtain ⟨later, hnew⟩ := exists_setFront_of_label hfits column commentColumn hmore body tail
    have hne : f.margin ≠ [] := by
      subst hkind
      exact (margin_ne_nil_of_label hfits).2
    rw [hnew]
    exact ne_of_star h hsharp hstyle (fun c hc => plain_padRight hfits column hc)
      (lastOf_padRight (hcolumn hne)) (by simp)
  · have hseam : seam? (readText conv continued text) = some f.margin.length := by
      rw [seam?_of_label h hhead hkind, if_pos hgap]
    have hdrop := drop_margin h hkind hgap
    rw [hmore, ← Line.text_readText conv continued text] at hdrop
    rw [movesBoundary_of_seam htears hseam hdrop]
    rfl

theorem boundary_iff_of_word_tears (hsharp : conv.Sharp) (hkind : kind ≠ .label)
    (htears : tears conv (readText conv continued text) = true) (column commentColumn : Int) :
    let new := setFront f column commentColumn body tail ++ tail.trimRight
    (commentInk (readText conv continued new) = commentInk (readText conv continued text) ∧
      (readText conv continued new).endsOpen = (readText conv continued text).endsOpen) ↔
      movesBoundary conv (readText conv continued text) = false := by
  intro new
  have hhead := head_ne_nil_of_tears h htears
  obtain ⟨c, more, rfl, hc, hrereads⟩ := exists_cons_of_tears h hkind htears
  have hseam : seam? (readText conv continued text) = some f.text.length := by
    simpa [hc] using seam?_of_word h hkind
  have hdrop : (readText conv continued text).text.drop f.text.length = c :: (more ++ tail) := by
    rw [Line.text_readText]
    exact drop_front h
  obtain ⟨pad, hpad, hne, hnew⟩ :=
    exists_setFront_of_word h.fits hhead column commentColumn hc more tail
  have hfront := fun x hx => plain_word (c := x) h.fits hkind column hx
  have hbefore : (lastOf none (f.margin.padRight column ++ (f.head ++ [' ']))).all isBlank =
      true := by
    rw [lastOf_word]
    rfl
  rcases rereads_iff.mp hrereads with ⟨rfl, hstyle⟩ | ⟨rfl, _, hquote⟩
  · have hmoves : movesBoundary conv (readText conv continued text) = true := by
      rw [movesBoundary_of_seam htears hseam hdrop]
      rfl
    have hlength : (ink tail).length ≤
        (ink (Text.trimRight more ++ (pad ++ tail.trimRight))).length := by
      simp only [Text.ink_append, Text.ink_trimRight, List.length_append]
      omega
    have hink := ne_of_star h hsharp hstyle hfront hbefore hlength
    rw [← hnew] at hink
    exact iff_of_false (fun hsame => hink hsame.1) (by simp [hmoves])
  · have hmem : '\'' ∈ Text.trimRight more ++ (pad ++ tail.trimRight) := by
      rw [List.mem_append] at hquote
      simpa [Comment.quote_mem_trimRight, Comment.quote_notMem_of_allBlank hpad] using hquote
    have hnewFindings := findings_of_quote hsharp hfront hbefore hmem
    rw [← hnew, ← findings_close hsharp hne hpad, ← restOfLine_eq h rfl,
      ← findings_readText h.entry_eq] at hnewFindings
    rw [movesBoundary_of_seam htears hseam hdrop, ← hnewFindings]
    simp [new]

theorem boundary_iff_of_cut (hsharp : conv.Sharp) {column : Int}
    (hcolumn : f.margin ≠ [] → (f.margin.length : Int) < column) (commentColumn : Int) :
    let new := setFront f column commentColumn body tail ++ tail.trimRight
    (commentInk (readText conv continued new) = commentInk (readText conv continued text) ∧
      (readText conv continued new).endsOpen = (readText conv continued text).endsOpen) ↔
      movesBoundary conv (readText conv continued text) = false := by
  intro new
  cases htears : tears conv (readText conv continued text) with
  | false =>
      have hkept := boundary_of_not_tears h hsharp htears hcolumn commentColumn
      exact iff_of_true hkept (by simp [movesBoundary, htears])
  | true =>
      by_cases hkind : kind = .label
      · obtain ⟨hink, hmoves⟩ :=
          boundary_of_label_tears h hsharp hkind htears hcolumn commentColumn
        exact iff_of_false (fun hsame => hink hsame.1) (by simp [hmoves])
      · exact boundary_iff_of_word_tears h hsharp hkind htears column commentColumn

end cut

/-! ## Every line -/

theorem boundary_line_iff {conv : Convention} (hsharp : conv.Sharp) {stops : TabStops}
    (hwidth : 1 ≤ stops.width) (continued : Bool) (text : Text) (column commentColumn : Int) :
    let new := line conv stops column commentColumn (readText conv continued text)
    (commentInk (readText conv continued new) = commentInk (readText conv continued text) ∧
      (readText conv continued new).endsOpen = (readText conv continued text).endsOpen) ↔
      movesBoundary conv (readText conv continued text) = false := by
  intro new
  cases hrigid : isRigid (readText conv continued text) with
  | true =>
      have hkept := boundary_of_isRigid hsharp stops column commentColumn hrigid
      exact iff_of_true hkept (by simp [movesBoundary, tears, seam?, hrigid])
  | false =>
      obtain ⟨kind, f, body, tail, tailMarks, h⟩ := Line.exists_cut_of_not_isRigid hrigid
      have hcolumn : f.margin ≠ [] → (f.margin.length : Int) <
          if f.margin = [] then column else stops.nextStop f.margin.length := by
        intro hne
        rw [if_neg hne]
        exact TabStops.lt_nextStop hwidth _
      have hiff := boundary_iff_of_cut h hsharp hcolumn commentColumn
      rw [← line_eq_setFront h hsharp stops column commentColumn] at hiff
      exact hiff

/-- Under valid settings in any comment style, the layout of a line has the comments of the line,
up to blanks, and leaves a comment open if and only if the line does, exactly if the line does not
move the boundary.  There is no layout only if a column is too far out. -/
theorem boundary_layout_iff (settings : Settings) (hvalid : settings.Valid) (continued : Bool)
    (old : Text) :
    match settings.page.line (settings.read continued old) with
    | .ok new =>
        ((settings.read continued new).endsOpen = (settings.read continued old).endsOpen ∧
          commentInk (settings.read continued new) = commentInk (settings.read continued old)) ↔
        movesBoundary (.ofStyle settings.style) (settings.read continued old) = false
    | .error fault => fault = .tooWide ∧
        Overflows settings.stops settings.commentColumn old.length := by
  rcases settings.page_line_cases hvalid continued old with ⟨column, hnew⟩ | ⟨herror, hover⟩
  · have hiff := @boundary_line_iff _ (Comment.sharp_ofStyle settings.style) settings.stops
      hvalid.width_pos continued old column settings.commentColumn
    simp only [hnew]
    simp only [Settings.read_eq]
    rw [and_comm]
    exact hiff
  · simp only [herror]
    exact ⟨trivial, hover⟩

/-- A quotation that the operand touches is no quotation, and the layout makes it one: the comment
in it is gone. -/
theorem boundary_moved_by_quote :
    ({} : Settings).Valid ∧
      ({} : Settings).page.line (({} : Settings).read false " db'a;b'".toList) =
        .ok "        db 'a                   ;b'".toList ∧
      ¬ ((({} : Settings).read false "        db 'a                   ;b'".toList).endsOpen =
          (({} : Settings).read false " db'a;b'".toList).endsOpen ∧
        commentInk (({} : Settings).read false "        db 'a                   ;b'".toList) =
          commentInk (({} : Settings).read false " db'a;b'".toList)) := by
  have hline : ({} : Settings).page.line (({} : Settings).read false " db'a;b'".toList) =
      .ok "        db 'a                   ;b'".toList := by rfl
  have hiff := boundary_layout_iff {} Settings.valid_default false " db'a;b'".toList
  simp only [hline] at hiff
  exact ⟨Settings.valid_default, hline, fun hkept => absurd (hiff.mp hkept) (by decide)⟩

end Layout
end AsmColumns
