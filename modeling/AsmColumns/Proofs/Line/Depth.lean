import AsmColumns.Proofs.Comment.Extent
import AsmColumns.Proofs.Line.Trailing

/-!
# The depth of a line of comment

Where comments run to the end of the line, a line of nothing but comment is blanks, a run of the
delimiter's character and a text behind the run.  The reading of such a line is known from these
pieces: its comment starts behind the blanks, and its depth is the length of the run.  The depth
alone decides the column of the line.
-/

namespace AsmColumns
namespace Line

open Comment (Convention Style blanked lastOf scan)
open Text (allBlank)

/-- The pieces of a line of comment: the blanks before it, the run of a character that opens it and
the text behind the run. -/
structure IsRemark (style : Style) (lead : Text) (c : Char) (depth : Nat) (rest : Text) : Prop where
  lead_blank : allBlank lead = true
  repeats : (Convention.ofStyle style).repeatChar? = some c
  mark_le : (Convention.ofStyle style).mark.length ≤ depth
  rest_stops : Text.Stops (· == c) rest

def remark (lead : Text) (c : Char) (depth : Nat) (rest : Text) : Text :=
  lead ++ (List.replicate depth c ++ rest)

theorem mark_eq_of_repeatChar? {conv : Convention} {c : Char} (h : conv.repeatChar? = some c) :
    conv.mark = List.replicate conv.mark.length c := by
  unfold Convention.repeatChar? at h
  split at h
  · cases h
  · next d rest hmark =>
    split at h
    · next hall =>
      obtain rfl := Option.some.inj h
      rw [hmark, List.eq_replicate_iff]
      refine ⟨rfl, List.forall_mem_cons.mpr ⟨rfl, fun b hb => ?_⟩⟩
      simpa using List.all_eq_true.mp hall b hb
    · cases h

theorem style_of_repeatChar? {style : Style} {c : Char}
    (h : (Convention.ofStyle style).repeatChar? = some c) : style ≠ .blockSlashStar := by
  rintro rfl
  cases h

/-- A run with a space behind it is the whole run. -/
theorem isRemark_space {style : Style} {lead : Text} {c : Char} {depth : Nat}
    (hlead : allBlank lead = true) (hchar : (Convention.ofStyle style).repeatChar? = some c)
    (hdepth : (Convention.ofStyle style).mark.length ≤ depth) (more : Text) :
    IsRemark style lead c depth (' ' :: more) := by
  refine ⟨hlead, hchar, hdepth, Text.stops_cons.mpr ?_⟩
  have hink := (Comment.sharp_ofStyle style).mark_ink c (mem_mark_of_repeatChar? hchar)
  rw [beq_eq_false_iff_ne]
  rintro rfl
  exact absurd hink (by decide)

/-! ## From the pieces to the reading -/

namespace IsRemark

variable {style : Style} {lead rest : Text} {c : Char} {depth : Nat}
  (h : IsRemark style lead c depth rest)
include h

theorem isBlock_eq : (Convention.ofStyle style).isBlock = false :=
  isBlock_eq_false (style_of_repeatChar? h.repeats)

theorem char_ink : Text.isBlank c = false :=
  (Comment.sharp_ofStyle style).mark_ink c (mem_mark_of_repeatChar? h.repeats)

theorem depth_pos : 0 < depth := by
  have hmark := List.length_pos_iff.mpr (Comment.sharp_ofStyle style).mark_ne
  have hle := h.mark_le
  omega

theorem mark_prefix : (Convention.ofStyle style).mark <+: List.replicate depth c ++ rest := by
  obtain ⟨more, hmore⟩ := Nat.exists_eq_add_of_le h.mark_le
  rw [mark_eq_of_repeatChar? h.repeats, hmore, List.replicate_add, List.append_assoc]
  exact List.prefix_append _ _

theorem takeWhile_eq : (List.replicate depth c ++ rest).takeWhile (· == c) =
    List.replicate depth c := by
  apply Text.takeWhile_append_of_stops _ h.rest_stops
  intro b hb
  simp [List.eq_of_mem_replicate hb]

/-- The blanks are passed over, and the first character of the run is exposed. -/
theorem trails : Trails (.ofStyle style) lead (List.replicate depth c ++ rest) := by
  have hsharp := Comment.sharp_ofStyle style
  have hunquoted : Comment.isUnquoted (Convention.ofStyle style).mark = true := by
    cases style <;> decide
  have hbefore : (lastOf none lead).all Text.isBlank = true := by
    by_cases hnil : lead = []
    · rw [hnil]
      rfl
    · exact Comment.lastOf_blank hnil h.lead_blank
  obtain ⟨more, hmore⟩ := Nat.exists_eq_add_of_le' h.depth_pos
  have hrun : List.replicate depth c ++ rest = c :: (List.replicate more c ++ rest) := by
    rw [hmore, List.replicate_succ, List.cons_append]
  refine ⟨.plain hsharp fun b hb => .inr (Text.allBlank_iff.mp h.lead_blank b hb), c, _, hrun, ?_⟩
  rw [Comment.advance_eq_none_iff]
  constructor
  · have hc := List.all_eq_true.mp hunquoted c (mem_mark_of_repeatChar? h.repeats)
    simp only [Bool.and_eq_true, bne_iff_ne] at hc
    simp [Comment.Quoting.step, hc]
  · rw [Comment.opensAt, ← hrun, List.isPrefixOf_iff_prefix.mpr h.mark_prefix, hbefore]
    simp

theorem commentDepth_eq : commentDepth (.ofStyle style) (remark lead c depth rest) = depth := by
  have hstops : ∀ b ∈ (List.replicate depth c ++ rest).head?, Text.isBlank b = false := by
    obtain ⟨more, hmore⟩ := Nat.exists_eq_add_of_le' h.depth_pos
    simp [hmore, List.replicate_succ, h.char_ink]
  have htrim : (remark lead c depth rest).trimLeft = List.replicate depth c ++ rest := by
    rw [remark, Text.trimLeft_lead h.lead_blank, Text.trimLeft_of_stops hstops]
  simp only [commentDepth, htrim, List.isPrefixOf_iff_prefix.mpr h.mark_prefix, if_true, h.repeats,
    h.takeWhile_eq, List.length_replicate]

theorem scan_eq (continued : Bool) :
    scan (.ofStyle style) continued (remark lead c depth rest) =
      ⟨[⟨lead.length, (List.replicate depth c ++ rest).length⟩], false⟩ :=
  h.trails.scan_eq h.isBlock_eq

theorem readText_eq (continued : Bool) :
    readText (.ofStyle style) continued (remark lead c depth rest) =
      { unsorted (.ofStyle style) continued (remark lead c depth rest) with
        isDoc := decide (3 ≤ depth), depth := depth } := by
  have hmarked : Marked (.ofStyle style) continued (remark lead c depth rest) _ :=
    (marked_of_scans (h.trails.scans h.isBlock_eq)).1
  have hcode : allBlank (blanked (List.replicate lead.length false ++
      List.replicate (List.replicate depth c ++ rest).length true)
        (remark lead c depth rest)) = true := by
    rw [remark, blanked_front, Text.allBlank_append, h.lead_blank, Bool.true_and]
    exact allBlank_blanked_replicate _
  have houtside : insideBlock (.ofStyle style) continued (remark lead c depth rest) = false := by
    simp [insideBlock, h.isBlock_eq]
  rw [readText_eq_of_allBlank hmarked hcode, houtside, h.scan_eq, h.commentDepth_eq]
  simp [isDocDepth, h.repeats]

theorem kind_eq (continued : Bool) :
    (readText (.ofStyle style) continued (remark lead c depth rest)).kind = .comment := by
  rw [h.readText_eq]
  rfl

theorem depth_eq (continued : Bool) :
    (readText (.ofStyle style) continued (remark lead c depth rest)).depth = depth := by
  rw [h.readText_eq]

theorem isDoc_eq (continued : Bool) :
    (readText (.ofStyle style) continued (remark lead c depth rest)).isDoc =
      decide (3 ≤ depth) := by
  rw [h.readText_eq]

theorem comments_eq (continued : Bool) :
    (readText (.ofStyle style) continued (remark lead c depth rest)).comments =
      [⟨lead.length, (List.replicate depth c ++ rest).length⟩] := by
  rw [comments_readText, h.scan_eq]

theorem commentStart?_eq (continued : Bool) :
    (readText (.ofStyle style) continued (remark lead c depth rest)).commentStart? =
      some lead.length := by
  rw [Reading.commentStart?, h.comments_eq]
  rfl

end IsRemark

/-! ## From the reading to the pieces -/

section pieces

variable {style : Style} {continued : Bool} {text : Text}

theorem exists_trails_of_comment (hstyle : style ≠ .blockSlashStar)
    (hkind : (readText (.ofStyle style) continued text).kind = .comment) :
    ∃ lead comment, text = lead ++ comment ∧ allBlank lead = true ∧
      Trails (.ofStyle style) lead comment := by
  have hline := isBlock_eq_false hstyle
  obtain ⟨marks, hmarked⟩ := exists_marked (.ofStyle style) continued text
  have hcode := allBlank_of_comment hmarked hkind
  have hread := readText_eq_of_allBlank hmarked hcode
  have houtside : insideBlock (.ofStyle style) continued text = false := by
    simp [insideBlock, hline]
  have hsome : (readText (.ofStyle style) continued text).commentStart? ≠ none := by
    rw [houtside] at hread
    simp only [Bool.false_eq_true, if_false] at hread
    split at hread
    · simp [hread] at hkind
    · next hspans =>
      rw [Reading.commentStart?, comments_readText]
      simpa using hspans
  obtain ⟨lead, comment, rfl, htrails⟩ :=
    exists_trails (Comment.sharp_ofStyle style) hline hsome
  refine ⟨lead, comment, rfl, ?_, htrails⟩
  rw [(hmarked.scans.unique (marked_of_scans (htrails.scans hline)).1.scans).1, blanked_front,
    Text.allBlank_append, Bool.and_eq_true] at hcode
  exact hcode.1

theorem exists_isRemark (hstyle : style ≠ .blockSlashStar)
    (hkind : (readText (.ofStyle style) continued text).kind = .comment) :
    ∃ lead c depth rest, text = remark lead c depth rest ∧ IsRemark style lead c depth rest := by
  obtain ⟨lead, comment, rfl, hlead, htrails⟩ := exists_trails_of_comment hstyle hkind
  obtain ⟨c, hc⟩ : ∃ c, (Convention.ofStyle style).repeatChar? = some c := by
    cases style with
    | blockSlashStar => exact absurd rfl hstyle
    | lineSemicolon | lineHash | lineStar | lineAt | blockSlashSlash => exact ⟨_, rfl⟩
  have hrun : comment.takeWhile (· == c) =
      List.replicate (comment.takeWhile (· == c)).length c := by
    rw [List.eq_replicate_iff]
    exact ⟨rfl, fun b hb => by simpa using List.mem_takeWhile_imp hb⟩
  have hmark : (Convention.ofStyle style).mark.length ≤ (comment.takeWhile (· == c)).length := by
    obtain ⟨more, hmore⟩ := htrails.mark_isPrefix
    have hall : ∀ b ∈ (Convention.ofStyle style).mark, (b == c) = true := by
      intro b hb
      rw [mark_eq_of_repeatChar? hc] at hb
      simp [List.eq_of_mem_replicate hb]
    rw [← hmore, List.takeWhile_append_of_pos hall, List.length_append]
    omega
  refine ⟨lead, c, (comment.takeWhile (· == c)).length, comment.dropWhile (· == c), ?_, hlead, hc,
    hmark, Text.stops_dropWhile _ _⟩
  rw [remark, ← hrun, List.takeWhile_append_dropWhile]

end pieces

/-! ## The column -/

/-- The column of a line of comment on a page. -/
theorem IsRemark.column_eq {style : Style} {lead rest : Text} {c : Char} {depth : Nat}
    (h : IsRemark style lead c depth rest) (continued : Bool) (stops : TabStops)
    (commentColumn : Int) :
    (Layout.Page.whole (.ofStyle style) stops commentColumn).column
        (readText (.ofStyle style) continued (remark lead c depth rest)) =
      if 3 ≤ depth then 0 else if depth = 1 then commentColumn else stops.first := by
  rw [Layout.column_whole, degraded_readText, h.kind_eq, h.isDoc_eq, h.depth_eq]
  simp only [Bool.false_eq_true, if_false, decide_eq_true_eq]
  by_cases hdoc : 3 ≤ depth
  · rw [if_pos hdoc, if_pos hdoc]
  · rw [if_neg hdoc, if_neg hdoc]
    by_cases hone : depth = 1
    · have hrepeatable : (Convention.ofStyle style).repeatable = true := by
        have hle := h.mark_le
        have hstyle := style_of_repeatChar? h.repeats
        cases style with
        | blockSlashStar => exact absurd rfl hstyle
        | blockSlashSlash => exact absurd (hone ▸ hle) (by decide)
        | lineSemicolon | lineHash | lineStar | lineAt => rfl
      simp [hone, hrepeatable]
    · have hother : ((depth : Int) == 1) = false := by
        rw [beq_eq_false_iff_ne]
        omega
      rw [if_neg hone, hother, Bool.and_false]
      rfl

/-- A line of blanks, a run of the delimiter's character and any text is a comment from the run on.
The length of the run is its depth, which decides its column. -/
theorem read_remark {style : Style} {c : Char}
    (hchar : (Convention.ofStyle style).repeatChar? = some c) {lead : Text}
    (hlead : allBlank lead = true) {depth : Nat}
    (hdepth : (Convention.ofStyle style).mark.length ≤ depth) {rest : Text}
    (hrest : rest.head? ≠ some c) (continued : Bool) (stops : TabStops) (commentColumn : Int) :
    let line := lead ++ (List.replicate depth c ++ rest)
    let r := read (.ofStyle style) continued (some line)
    r.kind = .comment ∧ r.comments = [⟨lead.length, line.length - lead.length⟩] ∧
      r.depth = depth ∧ (r.isDoc = true ↔ 3 ≤ depth) ∧
      (Layout.Page.whole (.ofStyle style) stops commentColumn).column r =
        if 3 ≤ depth then 0 else if depth = 1 then commentColumn else stops.first := by
  intro line r
  have hstops : Text.Stops (· == c) rest := by
    intro b hb
    rw [beq_eq_false_iff_ne]
    rintro rfl
    exact hrest hb
  have h : IsRemark style lead c depth rest := ⟨hlead, hchar, hdepth, hstops⟩
  have hr : r = readText (.ofStyle style) continued (remark lead c depth rest) :=
    read_eq_readText (Comment.sharp_ofStyle style) continued line
  have hlength : line.length - lead.length = (List.replicate depth c ++ rest).length := by
    simp only [line]
    rw [List.length_append]
    omega
  rw [hr, h.kind_eq, h.comments_eq, h.depth_eq, h.isDoc_eq, h.column_eq, hlength]
  exact ⟨rfl, rfl, rfl, decide_eq_true_iff, rfl⟩

/-- Two stars behind a tab and a space, with a star in quotes and an escaped one behind them. -/
theorem read_remark_stars :
    let line := "\t **'*' \\*".toList
    let r := read (.ofStyle .lineStar) true (some line)
    (Convention.ofStyle .lineStar).repeatChar? = some '*' ∧ allBlank "\t ".toList = true ∧
      (Convention.ofStyle .lineStar).mark.length ≤ 2 ∧ "'*' \\*".toList.head? ≠ some '*' ∧
      r.kind = .comment ∧ r.comments = [⟨2, 8⟩] ∧ r.depth = 2 ∧ r.isDoc = false ∧
      (Layout.Page.whole (.ofStyle .lineStar) ⟨[12, 20], 4⟩ 40).column r = 12 := by
  intro line r
  obtain ⟨hkind, hspan, hdepth, hdoc, hcolumn⟩ :=
    @read_remark .lineStar '*' (by decide) "\t ".toList (by decide) 2 (by decide)
      "'*' \\*".toList (by decide) true ⟨[12, 20], 4⟩ 40
  exact ⟨by decide, by decide, by decide, by decide, hkind, hspan, hdepth,
    Bool.eq_false_iff.mpr fun h => absurd (hdoc.mp h) (by decide), hcolumn⟩

end Line
end AsmColumns
