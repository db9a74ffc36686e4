import AsmColumns.Proofs.Comment.Ahead
import AsmColumns.Proofs.Layout.Blanks
import AsmColumns.Proofs.Line.Grammar

/-!
# Comments that run to the end of the line

Under a convention without a closing delimiter a line is code and a comment behind it.  The comment
is blank to the reader of the code, so the code is read as if the line ended with it.  And the code
is read the same way before every comment that opens there: a comment of another text, or the same
comment cut short.

The one exception is a single quote of the code that waits for a partner.  It finds one in a comment
with a quote in it, and then the delimiter between the two is quoted and opens nothing.
-/

namespace AsmColumns
namespace Line

open Comment (Convention Quoting Scans Walks advance awaitsQuote blanked lastOf scan scanFrom)
open Text (isBlank allBlank)

/-! ## The scan of code and a comment -/

/-- Code with a comment behind it. -/
structure Trails (conv : Convention) (code comment : Text) : Prop where
  walks : Walks conv {} none code comment {}
  opens : ∃ c more, comment = c :: more ∧ advance conv {} (lastOf none code) c more = none

section scan

variable {conv : Convention} {continued : Bool} {state last : Quoting} {before : Option Char}
  {code comment comment' text : Text}

theorem scanFrom_of_walks {rest : Text} (offset : Nat)
    (h : Walks conv state before code rest last) :
    scanFrom conv 0 state before offset (code ++ rest) =
      scanFrom conv 0 last (lastOf before code) (offset + code.length) rest := by
  induction h generalizing offset with
  | nil => rfl
  | cons hnext _ ih =>
      rw [List.cons_append, Comment.scanFrom_of_advance hnext, ih, Comment.lastOf_cons,
        List.length_cons, Nat.add_assoc, Nat.add_comm 1]

theorem scan_of_walks {rest : Text} (hline : conv.isBlock = false)
    (h : Walks conv {} none code rest last) :
    scan conv continued (code ++ rest) =
      scanFrom conv 0 last (lastOf none code) code.length rest := by
  have hscan : scan conv continued (code ++ rest) = scanFrom conv 0 {} none 0 (code ++ rest) := by
    simp [scan, hline]
  rw [hscan, scanFrom_of_walks 0 h, Nat.zero_add]

theorem Trails.scan_eq (hline : conv.isBlock = false) (h : Trails conv code comment) :
    scan conv continued (code ++ comment) = ⟨[⟨code.length, comment.length⟩], false⟩ := by
  obtain ⟨c, more, rfl, hopens⟩ := h.opens
  obtain ⟨hstep, hopens⟩ := Comment.advance_eq_none_iff.mp hopens
  rw [scan_of_walks hline h.walks, scanFrom, hstep]
  simp [hopens, hline]

theorem Trails.scans (hline : conv.isBlock = false) (h : Trails conv code comment) :
    Scans conv (.entry conv continued) (code ++ comment)
      (List.replicate code.length false ++ List.replicate comment.length true) false := by
  obtain ⟨c, more, rfl, hopens⟩ := h.opens
  rw [Comment.Mode.entry_of_line hline]
  exact h.walks.scans (.line hopens hline)

theorem exists_trails (hsharp : conv.Sharp) (hline : conv.isBlock = false)
    (h : (readText conv continued text).commentStart? ≠ none) :
    ∃ code comment, text = code ++ comment ∧ Trails conv code comment := by
  obtain ⟨marks, hmarked⟩ := exists_marked conv continued text
  obtain ⟨code, comment, tailMarks, rfl, rfl, hopens⟩ := exists_split hmarked.scans.length_marks
  have hne : comment ≠ [] := by
    intro hnil
    rw [hmarked.commentStart? hopens, if_pos hnil] at h
    exact h rfl
  have hhead := hopens.resolve_left hne
  have hscans := hmarked.scans
  rw [Comment.Mode.entry_of_line hline] at hscans
  generalize (scan conv continued (code ++ comment)).leftOpen = leftOpen at hscans
  obtain ⟨last, hwalks, htail⟩ := hscans.walks hsharp.mark_ne
  obtain rfl := htail.state_of_opens hhead
  refine ⟨code, comment, rfl, hwalks, ?_⟩
  cases htail with
  | done => exact absurd rfl hne
  | code => cases hhead
  | line hnone => exact ⟨_, _, rfl, hnone⟩
  | block hnone => exact ⟨_, _, rfl, hnone⟩

theorem Trails.commentStart? (hline : conv.isBlock = false) (h : Trails conv code comment) :
    (readText conv continued (code ++ comment)).commentStart? = some code.length := by
  rw [Reading.commentStart?, comments_readText, h.scan_eq hline]
  rfl

/-- The comment of a line starts behind a piece of it exactly if the piece is code and the rest a
comment. -/
theorem commentStart?_eq_iff (hsharp : conv.Sharp) (hline : conv.isBlock = false) :
    (readText conv continued (code ++ comment)).commentStart? = some code.length ↔
      Trails conv code comment := by
  constructor
  · intro hstart
    obtain ⟨code', comment', htext, htrails⟩ :=
      exists_trails hsharp hline (Option.ne_none_iff_exists'.mpr ⟨_, hstart⟩)
    have hlength : code.length = code'.length := by
      rw [htext, htrails.commentStart? hline, Option.some.injEq] at hstart
      exact hstart.symm
    obtain ⟨rfl, rfl⟩ := List.append_inj htext hlength
    exact htrails
  · exact Trails.commentStart? hline

theorem Trails.mark_isPrefix (h : Trails conv code comment) : conv.mark <+: comment := by
  obtain ⟨c, more, rfl, hopens⟩ := h.opens
  exact Comment.prefix_of_advance hopens

/-- Code ends where its comment starts, whatever the comment says, if no quote of the code waits for
one in the comment. -/
theorem Trails.reread (hsharp : conv.Sharp) (hmark : conv.mark <+: comment')
    (hquote : '\'' ∈ comment' → '\'' ∈ comment ∨ awaitsQuote {} none code = false)
    (h : Trails conv code comment) : Trails conv code comment' := by
  obtain ⟨later, hlater⟩ := h.mark_isPrefix
  obtain ⟨later', hlater'⟩ := hmark
  -- A delimiter that starts in the code ends no later than the one behind the code.
  have hstraddle : ∀ c more, c :: more <:+ code → conv.mark <+: c :: (more ++ comment') →
      conv.mark <+: c :: (more ++ comment) := by
    intro c more _ hstarts
    rw [← hlater', ← List.cons_append, ← List.append_assoc] at hstarts
    rw [← hlater, ← List.cons_append, ← List.append_assoc]
    have hle : conv.mark.length ≤ (c :: more ++ conv.mark).length := by
      rw [List.length_append]
      omega
    have hshort : conv.mark <+: c :: more ++ conv.mark :=
      List.prefix_of_prefix_length_le hstarts (List.prefix_append _ _) hle
    exact hshort.trans (List.prefix_append _ _)
  refine ⟨h.walks.reread (by decide) hquote hstraddle, ?_⟩
  obtain ⟨d, mark, hd⟩ := List.exists_cons_of_ne_nil hsharp.mark_ne
  obtain ⟨c, more, rfl, hopens⟩ := h.opens
  rw [hd, List.cons_append] at hlater hlater'
  obtain ⟨rfl, -⟩ := List.cons.inj hlater
  refine ⟨d, mark ++ later', hlater'.symm, Comment.advance_reopen_rest ?_ hopens⟩
  rw [hd]
  exact List.prefix_append (d :: mark) later'

theorem Trails.walks_nil (h : Trails conv code comment) : Walks conv {} none code [] {} := by
  refine h.walks.reread (by decide) (fun hquote => by cases hquote) fun c more _ hstarts => ?_
  rw [List.append_nil] at hstarts
  exact hstarts.trans (List.prefix_append (c :: more) comment)

/-- A comment with a quote in it does not open behind code with a quote that waits for it. -/
theorem not_trails_of_awaitsQuote (hwaits : awaitsQuote {} none code = true)
    (hquote : '\'' ∈ comment) : ¬ Trails conv code comment := by
  intro h
  have hsingle := h.walks.single_of_awaitsQuote hwaits hquote
  cases hsingle

end scan

/-! ## The code before a comment -/

section code

variable {conv : Convention} {continued : Bool} {kind : Kind} {f : Front} {rest z : Text}
  {code comment comment' : Text} {base base' : Reading}

theorem operand?_trail (f : Front) (rest : Text) (hz : allBlank z = true) :
    f.operand? (rest ++ z) = f.operand? rest := by
  rw [operand?_eq, operand?_eq, Text.allBlank_append, hz, Bool.and_true]
  cases hrest : allBlank rest with
  | true => simp
  | false => rw [Text.takeWhile_append_of_ink hrest, Text.trim_append_of_allBlank hz]

theorem Shapeless.trail (hz : allBlank z = true) (h : Shapeless code) : Shapeless (code ++ z) := by
  rcases Line.exists_fits (code ++ z) with ⟨kind, f, rest, hcode, hfits⟩ | hshapeless
  · have hframe : f.text ++ rest = [] ++ (code ++ z) := hcode.symm
    obtain ⟨lead, rest', hlead, rfl, hcore⟩ := hfits.exists_core rfl hz hframe
    rw [List.nil_append] at hlead
    rw [hcore, ← hlead] at h
    have hfits' : Fits kind f (rest' ++ []) := hfits.trail rfl
    rw [List.append_nil] at hfits'
    exact absurd h hfits'.not_shapeless
  · exact hshapeless

/-- Blanks behind the code of a line change nothing about its parts. -/
theorem readCode_trail (hbase : base.Bare) (hbase' : base'.Bare) (htext : allBlank base.text = false)
    (htext' : allBlank base'.text = false) (hz : allBlank z = true) (code : Text) :
    (readCode base (code ++ z)).kind = (readCode base' code).kind ∧
      (readCode base (code ++ z)).parts = (readCode base' code).parts := by
  rcases exists_fits code with ⟨kind, f, rest, rfl, hfits⟩ | hshapeless
  · have hfits' : Fits kind f (rest ++ z) := by
      rw [← List.append_nil rest] at hfits
      exact hfits.trail hz
    rw [List.append_assoc, readCode_of_fits hbase hfits', readCode_of_fits hbase' hfits,
      operand?_trail f rest hz]
    exact ⟨rfl, rfl⟩
  · rw [readCode_of_shapeless hshapeless, readCode_of_shapeless (hshapeless.trail hz), htext, htext']
    refine ⟨rfl, ?_⟩
    simp only [Reading.parts, hbase.label, hbase.condition, hbase.directive, hbase.operation,
      hbase.operand, hbase'.label, hbase'.condition, hbase'.directive, hbase'.operation,
      hbase'.operand]

theorem Trails.comments_nil (hline : conv.isBlock = false) (h : Trails conv code comment) :
    (readText conv continued code).comments = [] := by
  have hscan : scan conv continued (code ++ []) = _ := scan_of_walks hline h.walks_nil
  rw [List.append_nil] at hscan
  rw [comments_readText, hscan]
  rfl

/-- The code of a line is read as if the line ended with it. -/
theorem Trails.parts_eq (hline : conv.isBlock = false) (hink : allBlank code = false)
    (h : Trails conv code comment) (continued : Bool) :
    (readText conv continued (code ++ comment)).kind = (readText conv continued code).kind ∧
      (readText conv continued (code ++ comment)).parts = (readText conv continued code).parts := by
  have hwhole : Marked conv continued (code ++ comment) _ := (marked_of_scans (h.scans hline)).1
  have hscans : Scans conv (.entry conv continued) (code ++ [])
      (List.replicate code.length false ++ []) false := by
    rw [Comment.Mode.entry_of_line hline]
    exact h.walks_nil.scans .done
  rw [List.append_nil, List.append_nil] at hscans
  obtain ⟨hcode, -⟩ := marked_of_scans hscans
  have hblanked : blanked (List.replicate code.length false ++ List.replicate comment.length true)
      (code ++ comment) = code ++ List.replicate comment.length ' ' := by
    rw [blanked_front, Comment.blanked_replicate_true]
  have hz : allBlank (List.replicate comment.length ' ') = true := by
    simp [allBlank]
  rw [readText_of_code hwhole, readText_of_code hcode, hblanked, Comment.blanked_replicate_false]
  · apply readCode_trail (unsorted_bare ..) (unsorted_bare ..) _ hink hz
    simp [unsorted, hink]
  · rwa [Comment.blanked_replicate_false]
  · rw [hblanked, Text.allBlank_append, hink, Bool.false_and]

end code

/-! ## Lines in the styles without a closing delimiter -/

theorem isBlock_eq_false {style : Comment.Style} (h : style ≠ .blockSlashStar) :
    (Convention.ofStyle style).isBlock = false := by
  cases style with
  | blockSlashStar => exact absurd rfl h
  | lineSemicolon | lineHash | lineStar | lineAt | blockSlashSlash => rfl

/-- A line with a comment that runs to its end, cut where the comment starts, is read as the same
code without a comment; cut anywhere behind the delimiter it keeps the comment up to there. -/
theorem read_take_of_comment {style : Comment.Style} (hstyle : style ≠ .blockSlashStar)
    (continued : Bool) (line : Text) (i : Nat)
    (hspan : (read (.ofStyle style) continued (some line)).comments = [⟨i, line.length - i⟩])
    (hink : allBlank (line.take i) = false) :
    let whole := read (.ofStyle style) continued (some line)
    let code := read (.ofStyle style) continued (some (line.take i))
    (code.comments = [] ∧ code.kind = whole.kind ∧ code.parts = whole.parts) ∧
      ∀ m, i + (Convention.ofStyle style).mark.length ≤ m → m ≤ line.length →
        (read (.ofStyle style) continued (some (line.take m))).comments = [⟨i, m - i⟩] := by
  have hsharp := Comment.sharp_ofStyle style
  have hline := isBlock_eq_false hstyle
  simp only [read_eq_readText hsharp] at hspan ⊢
  have hstart : (readText (.ofStyle style) continued line).commentStart? = some i := by
    rw [Reading.commentStart?, hspan]
    rfl
  obtain ⟨code, comment, rfl, h⟩ := exists_trails hsharp hline (Option.ne_none_iff_exists'.mpr ⟨_, hstart⟩)
  obtain rfl : code.length = i := by
    rw [h.commentStart? hline] at hstart
    exact Option.some.inj hstart
  rw [List.take_left] at hink ⊢
  obtain ⟨hkind, hparts⟩ := h.parts_eq hline hink continued
  refine ⟨⟨h.comments_nil hline, hkind.symm, hparts.symm⟩, fun m hlow hhigh => ?_⟩
  obtain ⟨n, rfl⟩ := Nat.exists_eq_add_of_le (Nat.le_trans (Nat.le_add_right _ _) hlow)
  have hmark : (Convention.ofStyle style).mark <+: comment.take n := by
    apply List.prefix_of_prefix_length_le h.mark_isPrefix (List.take_prefix n comment)
    rw [List.length_take]
    have := h.mark_isPrefix.length_le
    omega
  have hcut := h.reread hsharp hmark fun hquote => .inl (List.mem_of_mem_take hquote)
  have hlength : (comment.take n).length = code.length + n - code.length := by
    rw [List.length_append] at hhigh
    rw [List.length_take]
    omega
  rw [List.take_length_add_append, comments_readText, hcut.scan_eq hline, hlength]

/-- A quoted delimiter opens no comment, with and without the comment behind it that has a quote. -/
theorem read_take_of_comment_quoted :
    let line := " db ';' ; it's".toList
    (read (.ofStyle .lineSemicolon) false (some line)).comments = [⟨8, 6⟩] ∧
      (read (.ofStyle .lineSemicolon) false (some (line.take 8))).comments = [] ∧
      (read (.ofStyle .lineSemicolon) false (some (line.take 8))).kind = .operation ∧
      (read (.ofStyle .lineSemicolon) false (some (line.take 12))).comments = [⟨8, 4⟩] := by
  intro line
  have hspan : (read (.ofStyle .lineSemicolon) false (some line)).comments =
      [⟨8, line.length - 8⟩] := by decide
  have hwhole : (read (.ofStyle .lineSemicolon) false (some line)).kind = .operation := by decide
  obtain ⟨⟨hnil, hkind, -⟩, hcut⟩ :=
    read_take_of_comment (by decide) false line 8 hspan (by rfl)
  exact ⟨hspan, hnil, hkind.trans hwhole, hcut 12 (by decide) (by decide)⟩

/-- Two lines with the same code before the delimiter have their comments there, and are read as the
same code, unless a quote of the code waits for one and the second comment has it. -/
theorem commentStart_iff_of_same_code {style : Comment.Style} (hstyle : style ≠ .blockSlashStar)
    (continued : Bool) (code first second : Text)
    (hstart : (read (.ofStyle style) continued
      (some (code ++ ((Convention.ofStyle style).mark ++ first)))).commentStart? =
        some code.length) :
    let r := read (.ofStyle style) continued
      (some (code ++ ((Convention.ofStyle style).mark ++ first)))
    let s := read (.ofStyle style) continued
      (some (code ++ ((Convention.ofStyle style).mark ++ second)))
    (s.commentStart? = some code.length ↔
      ¬ (awaitsQuote {} none code = true ∧ '\'' ∈ second)) ∧
    (s.commentStart? = some code.length → allBlank code = false →
      s.kind = r.kind ∧ s.parts = r.parts) := by
  have hsharp := Comment.sharp_ofStyle style
  have hline := isBlock_eq_false hstyle
  simp only [read_eq_readText hsharp, commentStart?_eq_iff hsharp hline] at hstart ⊢
  have hunquoted : '\'' ∉ (Convention.ofStyle style).mark := by
    cases style <;> decide
  refine ⟨⟨fun h hwaits => ?_, fun hfree => ?_⟩, fun h hink => ?_⟩
  · exact not_trails_of_awaitsQuote hwaits.1 (List.mem_append_right _ hwaits.2) h
  · apply hstart.reread hsharp (List.prefix_append _ _)
    intro hquote
    have hsecond : '\'' ∈ second := (List.mem_append.mp hquote).resolve_left hunquoted
    refine .inr (Bool.eq_false_iff.mpr fun hwaits => hfree ⟨hwaits, hsecond⟩)
  · obtain ⟨hkind, hparts⟩ := hstart.parts_eq hline hink continued
    obtain ⟨hkind', hparts'⟩ := h.parts_eq hline hink continued
    exact ⟨hkind'.trans hkind.symm, hparts'.trans hparts.symm⟩

/-- A prime waits for nothing: the comment behind it starts there with a quote in it as well. -/
theorem commentStart_behind_prime :
    let code := " ex af,af' ".toList
    (read (.ofStyle .lineSemicolon) false (some (code ++ ([';'] ++ [])))).commentStart? =
        some 11 ∧
      (read (.ofStyle .lineSemicolon) false
        (some (code ++ ([';'] ++ "don't".toList)))).commentStart? = some 11 := by
  intro code
  have hstart : (read (.ofStyle .lineSemicolon) false
      (some (code ++ ([';'] ++ [])))).commentStart? = some code.length := by rfl
  obtain ⟨hiff, -⟩ :=
    commentStart_iff_of_same_code (by decide) false code [] "don't".toList hstart
  exact ⟨hstart, hiff.mpr fun hwaits => absurd hwaits.1 (by decide)⟩

/-- A quote that has no partner in the code finds one in the comment, and the comment is gone. -/
theorem comment_lost_to_quote :
    let code := " db 'x ".toList
    (read (.ofStyle .lineSemicolon) false (some (code ++ ([';'] ++ [])))).commentStart? =
        some code.length ∧
      (read (.ofStyle .lineSemicolon) false
        (some (code ++ ([';'] ++ "it's".toList)))).commentStart? = none := by
  intro code
  exact ⟨by rfl, by rfl⟩

end Line
end AsmColumns
