import AsmColumns.Comment.Bounds
import AsmColumns.Proofs.Line.Depth

/-!
# The body of a comment and the lines refilled from it

A comment is its opening delimiter, a body between spaces and tabs, and its closing delimiter.  The
bounds of a comment enclose that body, and nothing else is cut away: the delimiters are looked for
at the two ends one after the other, so that they never overlap, and a comment that goes on from
another line need not have an opening one.

Where comments run to the end of the line, what stands before the body is kept for the lines that
the body is refilled into.  A line that starts so is a comment like the old one, whatever follows.
-/

namespace AsmColumns

/-! ## Bodies between spaces and tabs -/

namespace Text

/-- The text without the spaces and tabs at its two ends. -/
def unpadded (t : Text) : Text :=
  dropTail isPad (t.dropWhile isPad)

theorem pads_unpadded_pads (t : Text) :
    t.takeWhile isPad ++ (unpadded t ++ takeTail isPad (t.dropWhile isPad)) = t := by
  rw [unpadded, dropTail_append_takeTail, List.takeWhile_append_dropWhile]

theorem stops_reverse_dropTail (p : Char → Bool) (t : Text) : Stops p (dropTail p t).reverse := by
  rw [dropTail, List.reverse_reverse]
  exact stops_dropWhile p t.reverse

theorem Stops.dropTail {p : Char → Bool} {t : Text} (h : Stops p t) : Stops p (dropTail p t) := by
  intro c hc
  apply h c
  rw [← dropTail_append_takeTail p t, List.head?_append_of_ne_nil]
  · exact hc
  · rintro hnil
    rw [hnil] at hc
    cases hc

theorem stops_unpadded (t : Text) : Stops isPad (unpadded t) :=
  (stops_dropWhile isPad t).dropTail

theorem stops_reverse_unpadded (t : Text) : Stops isPad (unpadded t).reverse :=
  stops_reverse_dropTail isPad _

/-- A text that neither starts nor ends with a space or tab is its own body behind a space. -/
theorem unpadded_space {t : Text} (hstart : Stops isPad t) (hend : Stops isPad t.reverse) :
    unpadded (' ' :: t) = t := by
  have hself : ∀ {s : Text}, Stops isPad s → s.dropWhile isPad = s := by
    intro s hs
    exact @dropWhile_append_of_stops isPad [] s (by simp) hs
  rw [unpadded, List.dropWhile_cons_of_pos rfl, hself hstart, dropTail, hself hend,
    List.reverse_reverse]

theorem slice_append (front piece behind : Text) :
    slice front.length (front.length + piece.length) (front ++ (piece ++ behind)) = piece := by
  rw [slice, List.drop_left, Nat.add_sub_cancel_left, List.take_left]

end Text

namespace Comment

open Line (Reading IsRemark readText remark)
open Text (isPad slice unpadded)

/-! ## The pieces of a comment -/

/-- What opens a comment: its delimiter or, if that repeats one character, the whole run of it.  A
comment that goes on from another line may have none. -/
inductive IsOpening (conv : Convention) (comment : Text) : Text → Prop where
  | mark : conv.mark <+: comment → conv.repeatChar? = none → IsOpening conv comment conv.mark
  | run {c : Char} : conv.mark <+: comment → conv.repeatChar? = some c →
      IsOpening conv comment (comment.takeWhile (· == c))
  | inherited : ¬ conv.mark <+: comment → IsOpening conv comment []

/-- What closes a comment that ends at `stop`: the closing delimiter, if it stands there and starts
at or behind `start`. -/
inductive IsClosing (conv : Convention) (text : Text) (start stop : Nat) : Text → Prop where
  | closed {i : Nat} : conv.isBlock = true → start ≤ i → conv.closing <+: text.drop i →
      i + conv.closing.length = stop → IsClosing conv text start stop conv.closing
  | unclosed : (conv.isBlock = true → ∀ i, start ≤ i → conv.closing <+: text.drop i →
      i + conv.closing.length ≠ stop) → IsClosing conv text start stop []

/-- A stretch of a comment that is all of it but for the delimiters and the spaces and tabs beside
them. -/
structure IsBody (conv : Convention) (text : Text) (comment body : Span) : Prop where
  start_le : comment.start ≤ body.start
  stop_le : body.stop ≤ comment.stop
  starts : Text.Stops isPad (body.of text)
  ends : Text.Stops isPad (body.of text).reverse
  delimited : ∃ opening lead trail closing,
    slice comment.start body.start text = opening ++ lead ∧
    slice body.stop comment.stop text = trail ++ closing ∧
    IsOpening conv (comment.of text) opening ∧
    IsClosing conv text (comment.start + opening.length) comment.stop closing ∧
    (∀ c ∈ lead, isPad c = true) ∧ ∀ c ∈ trail, isPad c = true

section pieces

variable {conv : Convention} {front comment behind opening closing : Text}

theorem IsOpening.isPrefix (h : IsOpening conv comment opening) : opening <+: comment := by
  cases h with
  | mark hmark => exact hmark
  | run => exact List.takeWhile_prefix _
  | inherited => exact List.nil_prefix

/-- The opening delimiter is looked for in the whole line, and found in the comment. -/
theorem exists_bodyStart (front : Text)
    (hlong : conv.mark <+: comment ++ behind → conv.mark.length ≤ comment.length) :
    ∃ opening, IsOpening conv comment opening ∧
      bodyStart conv (front ++ (comment ++ behind)) front.length
        (front.length + comment.length) = .ok (front.length + opening.length) := by
  unfold bodyStart
  rw [List.drop_left, Text.slice_append]
  split
  · next hmark =>
    rw [List.isPrefixOf_iff_prefix] at hmark
    have hcomment : conv.mark <+: comment :=
      List.prefix_of_prefix_length_le hmark (List.prefix_append _ _) (hlong hmark)
    split
    · next hnone => exact ⟨conv.mark, .mark hcomment hnone, rfl⟩
    · next c hc =>
      refine ⟨_, .run hcomment hc, if_neg ?_⟩
      simp only [List.length_append, Bool.and_eq_true, decide_eq_true_eq]
      omega
  · next hmark =>
    rw [List.isPrefixOf_iff_prefix] at hmark
    exact ⟨[], .inherited fun h => hmark (h.trans (List.prefix_append _ _)), rfl⟩

theorem exists_bodyStop (conv : Convention) (front inner behind : Text) :
    ∃ core closing, inner = core ++ closing ∧
      bodyStop conv (front ++ (inner ++ behind)) front.length (front.length + inner.length) =
        front.length + core.length ∧
      IsClosing conv (front ++ (inner ++ behind)) front.length (front.length + inner.length)
        closing := by
  unfold bodyStop
  rw [Text.slice_append]
  by_cases hclosed : conv.isBlock = true ∧ conv.closing <:+ inner
  · obtain ⟨core, rfl⟩ := hclosed.2
    refine ⟨core, conv.closing, rfl, ?_,
      .closed (i := front.length + core.length) hclosed.1 ?_ ?_ ?_⟩
    · simp only [hclosed.1, List.isSuffixOf_iff_suffix.mpr hclosed.2, Bool.and_self, if_true,
        List.length_append]
      omega
    · omega
    · rw [List.drop_length_add_append, List.append_assoc, List.drop_left]
      exact List.prefix_append _ _
    · rw [List.length_append]
      omega
  · refine ⟨inner, [], by simp, if_neg ?_, .unclosed fun hblock i hi hoccurs hstop => ?_⟩
    · rwa [Bool.and_eq_true, List.isSuffixOf_iff_suffix]
    · -- A closing delimiter that ends with the comment, and starts in it, is a suffix of it.
      apply hclosed
      refine ⟨hblock, ?_⟩
      obtain ⟨n, rfl⟩ := Nat.exists_eq_add_of_le hi
      have hn : n + conv.closing.length = inner.length := by omega
      rw [List.drop_length_add_append, List.drop_append_of_le_length (by omega)] at hoccurs
      have hlast : conv.closing = inner.drop n := by
        apply (List.prefix_of_prefix_length_le hoccurs (List.prefix_append _ _) ?_).eq_of_length
        · rw [List.length_drop]
          omega
        · rw [List.length_drop]
          omega
      rw [hlast]
      exact List.drop_suffix n inner

theorem trimmedSpan_eq (front core behind : Text) :
    trimmedSpan (front ++ (core ++ behind)) front.length (front.length + core.length) =
      .ok ⟨front.length + (core.takeWhile isPad).length, (unpadded core).length⟩ := by
  have hdrop : core.drop (core.takeWhile isPad).length = core.dropWhile isPad := by
    have hleft : (core.takeWhile isPad ++ core.dropWhile isPad).drop
        (core.takeWhile isPad).length = core.dropWhile isPad := List.drop_left
    rwa [List.takeWhile_append_dropWhile] at hleft
  unfold trimmedSpan
  rw [if_neg (by omega), if_neg]
  · simp only [Text.slice_append, hdrop, unpadded]
  · simp only [List.length_append, Bool.and_eq_true, decide_eq_true_eq]
    omega

/-- The first comment of a reading, cut into its delimiters and what lies between them. -/
theorem exists_bounds {r : Reading} {later : List Span}
    (htext : r.text = front ++ (comment ++ behind))
    (hspans : r.comments = ⟨front.length, comment.length⟩ :: later)
    (hlong : conv.mark <+: comment ++ behind → conv.mark.length ≤ comment.length) :
    ∃ opening core closing, comment = opening ++ (core ++ closing) ∧
      IsOpening conv comment opening ∧
      IsClosing conv r.text (front.length + opening.length) (front.length + comment.length)
        closing ∧
      bounds conv r = .ok (some ⟨front.length + opening.length + (core.takeWhile isPad).length,
        (unpadded core).length⟩) := by
  obtain ⟨opening, hopening, hstart⟩ := exists_bodyStart front hlong
  obtain ⟨inner, rfl⟩ := hopening.isPrefix
  obtain ⟨core, closing, rfl, hstop, hclosing⟩ :=
    exists_bodyStop conv (front ++ opening) inner behind
  have hshape : front ++ (opening ++ (core ++ closing) ++ behind) =
      front ++ opening ++ (core ++ closing ++ behind) := by
    simp only [List.append_assoc]
  have hlength : front.length + (opening ++ (core ++ closing)).length =
      (front ++ opening).length + (core ++ closing).length := by
    simp only [List.length_append]
    omega
  have htrim := trimmedSpan_eq (front ++ opening) core (closing ++ behind)
  rw [← List.append_assoc core] at htrim
  refine ⟨opening, core, closing, rfl, hopening, ?_, ?_⟩
  · rw [htext, hlength, hshape, ← List.length_append]
    exact hclosing
  · simp only [bounds, hspans, Span.stop, htext]
    rw [hstart, hlength, hshape, ← List.length_append]
    change (trimmedSpan _ _ (bodyStop conv _ _ _) >>= _) = _
    rw [hstop, htrim]
    rfl

theorem isBody_of_pieces {lead body trail text : Text}
    (htext : text = front ++ (opening ++ (lead ++ (body ++ (trail ++ (closing ++ behind))))))
    (hopening : IsOpening conv (opening ++ (lead ++ (body ++ (trail ++ closing)))) opening)
    (hclosing : IsClosing conv text (front.length + opening.length)
      (front.length + (opening ++ (lead ++ (body ++ (trail ++ closing)))).length) closing)
    (hlead : ∀ c ∈ lead, isPad c = true) (htrail : ∀ c ∈ trail, isPad c = true)
    (hstarts : Text.Stops isPad body) (hends : Text.Stops isPad body.reverse) :
    IsBody conv text ⟨front.length, (opening ++ (lead ++ (body ++ (trail ++ closing)))).length⟩
      ⟨front.length + opening.length + lead.length, body.length⟩ := by
  have hbody : Span.of ⟨front.length + opening.length + lead.length, body.length⟩ text = body := by
    have hslice := Text.slice_append (front ++ opening ++ lead) body (trail ++ (closing ++ behind))
    simpa [Span.of, Span.stop, htext, Nat.add_assoc] using hslice
  have hcomment : Span.of
      ⟨front.length, (opening ++ (lead ++ (body ++ (trail ++ closing)))).length⟩ text =
        opening ++ (lead ++ (body ++ (trail ++ closing))) := by
    have hslice :=
      Text.slice_append front (opening ++ (lead ++ (body ++ (trail ++ closing)))) behind
    simpa [Span.of, Span.stop, htext, Nat.add_assoc] using hslice
  have hbefore : slice front.length (front.length + opening.length + lead.length) text =
      opening ++ lead := by
    have hslice :=
      Text.slice_append front (opening ++ lead) (body ++ (trail ++ (closing ++ behind)))
    simpa [htext, Nat.add_assoc] using hslice
  have hafter : slice (front.length + opening.length + lead.length + body.length)
      (front.length + (opening ++ (lead ++ (body ++ (trail ++ closing)))).length) text =
        trail ++ closing := by
    have hslice := Text.slice_append (front ++ opening ++ lead ++ body) (trail ++ closing) behind
    simpa [htext, Nat.add_assoc] using hslice
  refine ⟨?_, ?_, by rwa [hbody], by rwa [hbody],
    opening, lead, trail, closing, hbefore, hafter, ?_, hclosing, hlead, htrail⟩
  · simp only
    omega
  · simp only [Span.stop, List.length_append]
    omega
  · rwa [hcomment]

end pieces

/-! ## The first comment of a line -/

section line

variable {style : Style} {continued : Bool} {text : Text}

/-- A comment with an opening delimiter is long enough for it: it runs to the end of the line, or it
is closed behind a place where the delimiter ends. -/
theorem length_of_head {span : Span} {later : List Span}
    (h : (scan (.ofStyle style) continued text).spans = span :: later) :
    span.stop = text.length ∨ span.start + (Convention.ofStyle style).mark.length ≤ span.stop := by
  by_cases hstyle : style = .blockSlashStar
  · subst hstyle
    have hdelimits := @delimits_scan (.ofStyle .blockSlashStar) rfl (by decide) (by decide)
      continued text
    rw [h] at hdelimits
    have hends := hdelimits.ends 0 span rfl
    -- The search for the end starts behind the opening delimiter or, in a line that is entered
    -- inside a comment, at the margin: there the closing delimiter is as long as an opening one.
    cases continued with
    | false =>
        generalize hstop : span.stop = stop at hends
        cases hends with
        | closed hfirst =>
            right
            have hle : span.start + 2 ≤ _ := hfirst.start_le
            exact hle.trans (Nat.le_add_right ..)
        | unclosed => exact .inl rfl
    | true =>
        have hzero : span.start = 0 := by
          by_cases hnil : text = []
          · subst hnil
            cases h
          · simpa using hdelimits.entered rfl hnil
        generalize hstop : span.stop = stop at hends
        cases hends with
        | closed =>
            right
            rw [hzero, Nat.zero_add]
            exact Nat.le_add_left ..
        | unclosed => exact .inl rfl
  · left
    apply stop_of_mem_scan (Line.isBlock_eq_false hstyle) continued text
    rw [h]
    exact List.mem_cons_self

/-- A comment that has its bounds in the line, with what stands before and behind it. -/
theorem exists_pieces_of_head {span : Span} {later : List Span}
    (h : (scan (.ofStyle style) continued text).spans = span :: later) :
    ∃ front comment behind, text = front ++ (comment ++ behind) ∧
      span = ⟨front.length, comment.length⟩ ∧
      ((Convention.ofStyle style).mark <+: comment ++ behind →
        (Convention.ofStyle style).mark.length ≤ comment.length) := by
  obtain ⟨marks, hmarked⟩ := Line.exists_marked (.ofStyle style) continued text
  have hwithin := hmarked.spells.inOrder.within span (by rw [h]; exact List.mem_cons_self)
  rw [Nat.zero_add, hmarked.scans.length_marks, Span.stop] at hwithin
  refine ⟨text.take span.start, (text.drop span.start).take span.length,
    (text.drop span.start).drop span.length, ?_, ?_, fun hmark => ?_⟩
  · rw [List.take_append_drop, List.take_append_drop]
  · rw [List.length_take, List.length_take, List.length_drop, Nat.min_eq_left (by omega),
      Nat.min_eq_left (by omega)]
  · have hlength := hmark.length_le
    rw [List.take_append_drop, List.length_drop] at hlength
    rw [List.length_take, List.length_drop]
    rcases length_of_head h with hend | hlong
    · rw [Span.stop] at hend
      omega
    · rw [Span.stop] at hlong
      omega

end line

/-- The bounds of a line enclose the body of its first comment; there are none only if it has no
comment. -/
theorem bounds_read (style : Style) (continued : Bool) (line : Text) :
    let r := Line.read (.ofStyle style) continued (some line)
    ∃ found, bounds (.ofStyle style) r = .ok found ∧ (found = none ↔ r.comments = []) ∧
      ∀ comment body, r.comments.head? = some comment → found = some body →
        IsBody (.ofStyle style) line comment body := by
  intro r
  have hr : r = readText (.ofStyle style) continued line :=
    Line.read_eq_readText (sharp_ofStyle style) continued line
  have hcomments : r.comments = (scan (.ofStyle style) continued line).spans := by
    rw [hr, Line.comments_readText]
  have htext : r.text = line := by
    rw [hr, Line.text_readText]
  cases hspans : (scan (.ofStyle style) continued line).spans with
  | nil =>
      rw [hspans] at hcomments
      exact ⟨none, by rw [bounds, hcomments], by simp [hcomments], by simp⟩
  | cons span later =>
      obtain ⟨front, comment, behind, rfl, rfl, hlong⟩ := exists_pieces_of_head hspans
      rw [hspans] at hcomments
      obtain ⟨opening, core, closing, rfl, hopening, hclosing, hbounds⟩ :=
        exists_bounds htext hcomments hlong
      refine ⟨_, hbounds, by simp [hcomments], ?_⟩
      rintro comment body hhead hfound
      rw [hcomments] at hhead
      cases hhead
      cases hfound
      have hcore := Text.pads_unpadded_pads core
      rw [htext] at hclosing
      have hshape : opening ++ (core ++ closing) = opening ++ (core.takeWhile isPad ++
          (unpadded core ++ (Text.takeTail isPad (core.dropWhile isPad) ++ closing))) := by
        conv_lhs => rw [← hcore]
        simp only [List.append_assoc]
      rw [hshape] at hopening hclosing ⊢
      have hpieces : front ++ (opening ++ (core.takeWhile isPad ++ (unpadded core ++
          (Text.takeTail isPad (core.dropWhile isPad) ++ closing))) ++ behind) =
            front ++ (opening ++ (core.takeWhile isPad ++ (unpadded core ++
              (Text.takeTail isPad (core.dropWhile isPad) ++ (closing ++ behind))))) := by
        simp only [List.append_assoc]
      exact isBody_of_pieces hpieces hopening hclosing (fun c hc => List.mem_takeWhile_imp hc)
        (fun c hc => Text.of_mem_takeTail hc) (Text.stops_unpadded core)
        (Text.stops_reverse_unpadded core)

/-- Entered inside a comment, a slash, a star and a slash are an opening delimiter and a body: the
closing delimiter that ends the comment shares the star. -/
example : (bounds (.ofStyle .blockSlashStar)
    (Line.read (.ofStyle .blockSlashStar) true (some "/*/ x".toList))).toOption =
      some (some ⟨2, 1⟩) := by decide

/-! ## Refilling -/

section refill

variable {style : Style} {lead rest : Text} {c : Char} {depth : Nat}

theorem bounds_remark (h : IsRemark style lead c depth rest) (continued : Bool) :
    bounds (.ofStyle style) (readText (.ofStyle style) continued (remark lead c depth rest)) =
      .ok (some ⟨lead.length + depth + (rest.takeWhile isPad).length, (unpadded rest).length⟩) := by
  have htext : (readText (.ofStyle style) continued (remark lead c depth rest)).text =
      lead ++ (List.replicate depth c ++ rest ++ []) := by
    rw [Line.text_readText, List.append_nil, remark]
  have hlong : (Convention.ofStyle style).mark <+: List.replicate depth c ++ rest ++ [] →
      (Convention.ofStyle style).mark.length ≤ (List.replicate depth c ++ rest).length := by
    intro hmark
    simpa using hmark.length_le
  obtain ⟨opening, core, closing, hpieces, hopening, hclosing, hbounds⟩ :=
    exists_bounds htext (h.comments_eq continued) hlong
  have hrun : opening = List.replicate depth c := by
    cases hopening with
    | mark _ hnone =>
        rw [h.repeats] at hnone
        cases hnone
    | run _ hchar =>
        rw [h.repeats, Option.some.injEq] at hchar
        rw [← hchar, h.takeWhile_eq]
    | inherited hnot => exact absurd h.mark_prefix hnot
  have hopen : closing = [] := by
    cases hclosing with
    | closed hblock =>
        rw [h.isBlock_eq] at hblock
        cases hblock
    | unclosed => rfl
  subst hrun hopen
  rw [List.append_nil] at hpieces
  obtain rfl := List.append_cancel_left hpieces
  rw [hbounds, List.length_replicate]

theorem fillLead_remark (h : IsRemark style lead c depth rest) (continued : Bool) :
    fillLead (.ofStyle style) (readText (.ofStyle style) continued (remark lead c depth rest)) =
      .ok (some (lead ++ (List.replicate depth c ++ [' ']))) := by
  have hrun : Text.trimRight (slice lead.length
      (lead.length + depth + (rest.takeWhile isPad).length) (remark lead c depth rest)) =
        List.replicate depth c := by
    have hslice := Text.slice_append lead (List.replicate depth c ++ rest.takeWhile isPad)
      (rest.dropWhile isPad)
    rw [List.append_assoc, List.takeWhile_append_dropWhile, List.length_append,
      List.length_replicate, ← Nat.add_assoc] at hslice
    rw [remark, hslice, Text.trimRight_append, if_pos (Text.allBlank_takeWhile_isPad rest)]
    apply Text.trimRight_of_ink
    intro b hb
    rw [List.eq_of_mem_replicate hb]
    exact h.char_ink
  have hmark : (Convention.ofStyle style).mark.isPrefixOf
      ((remark lead c depth rest).drop lead.length) = true := by
    rw [remark, List.drop_left]
    exact List.isPrefixOf_iff_prefix.mpr h.mark_prefix
  have htake : (remark lead c depth rest).take lead.length = lead := by
    rw [remark, List.take_left]
  simp only [fillLead, h.kind_eq, h.comments_eq, bounds_remark h, Line.text_readText]
  change (if _ then Except.ok _ else Except.ok _) = _
  rw [if_pos hmark]
  simp [hrun, htake]

theorem of_body_remark (lead : Text) (c : Char) (depth : Nat) (rest : Text) :
    Span.of ⟨lead.length + depth + (rest.takeWhile isPad).length, (unpadded rest).length⟩
      (remark lead c depth rest) = unpadded rest := by
  have hslice := Text.slice_append (lead ++ (List.replicate depth c ++ rest.takeWhile isPad))
    (unpadded rest) (Text.takeTail isPad (rest.dropWhile isPad))
  have hshape : lead ++ (List.replicate depth c ++ rest.takeWhile isPad) ++
      (unpadded rest ++ Text.takeTail isPad (rest.dropWhile isPad)) = remark lead c depth rest := by
    rw [remark]
    conv_rhs => rw [← Text.pads_unpadded_pads rest]
    simp only [List.append_assoc]
  rw [hshape] at hslice
  simpa [Span.of, Span.stop, Nat.add_assoc] using hslice

end refill

/-- The lead of a line of comment, with any text behind it, is a comment at the same column and of
the same depth, and has the same lead; with the old body behind it, it has that body. -/
theorem fillLead_refills {style : Style} (hstyle : style ≠ .blockSlashStar) {continued : Bool}
    {line : Text} (hkind : (Line.read (.ofStyle style) continued (some line)).kind = .comment) :
    let conv := Convention.ofStyle style
    let old := Line.read conv continued (some line)
    ∃ lead body, fillLead conv old = .ok (some lead) ∧ bounds conv old = .ok (some body) ∧
      (∀ more again,
        let new := Line.read conv again (some (lead ++ more))
        new.kind = .comment ∧ new.commentStart? = old.commentStart? ∧ new.depth = old.depth ∧
          new.isDoc = old.isDoc ∧
          (∀ stops commentColumn, (Layout.Page.whole conv stops commentColumn).column new =
            (Layout.Page.whole conv stops commentColumn).column old) ∧
          fillLead conv new = .ok (some lead)) ∧
      ∀ again,
        let refilled := lead ++ body.of line
        ∃ found, bounds conv (Line.read conv again (some refilled)) = .ok (some found) ∧
          found.of refilled = body.of line := by
  intro conv old
  have hread : ∀ again text, Line.read (.ofStyle style) again (some text) =
      readText (.ofStyle style) again text :=
    Line.read_eq_readText (sharp_ofStyle style)
  rw [hread] at hkind
  obtain ⟨lead, c, depth, rest, rfl, h⟩ := Line.exists_isRemark hstyle hkind
  have hshape : ∀ more, lead ++ (List.replicate depth c ++ [' ']) ++ more =
      remark lead c depth (' ' :: more) := by
    intro more
    simp [remark]
  simp only [old, conv, hread]
  refine ⟨_, _, fillLead_remark h continued, bounds_remark h continued, fun more again => ?_,
    fun again => ?_⟩
  · have hnew := Line.isRemark_space h.lead_blank h.repeats h.mark_le more
    rw [hshape, hnew.kind_eq, hnew.commentStart?_eq, h.commentStart?_eq, hnew.depth_eq, h.depth_eq,
      hnew.isDoc_eq, h.isDoc_eq]
    refine ⟨rfl, rfl, rfl, rfl, fun stops commentColumn => ?_, fillLead_remark hnew again⟩
    rw [hnew.column_eq, h.column_eq]
  · have hnew := Line.isRemark_space h.lead_blank h.repeats h.mark_le (unpadded rest)
    have hbody : unpadded (' ' :: unpadded rest) = unpadded rest :=
      Text.unpadded_space (Text.stops_unpadded rest) (Text.stops_reverse_unpadded rest)
    rw [of_body_remark, hshape]
    refine ⟨_, bounds_remark hnew again, ?_⟩
    rw [of_body_remark, hbody]

/-- A documentation comment with a quote in it, refilled with another quote and a delimiter. -/
theorem fillLead_refills_quote :
    let conv := Convention.ofStyle .lineSemicolon
    let line := "  ;;;\t it's  ".toList
    let lead := "  ;;; ".toList
    Style.lineSemicolon ≠ .blockSlashStar ∧
      (Line.read conv false (some line)).kind = .comment ∧
      fillLead conv (Line.read conv false (some line)) = .ok (some lead) ∧
      (let new := Line.read conv true (some (lead ++ "'; x".toList))
       new.kind = .comment ∧ new.commentStart? = some 2 ∧ new.depth = 3 ∧ new.isDoc = true ∧
        fillLead conv new = .ok (some lead)) ∧
      ∃ found, bounds conv (Line.read conv false (some (lead ++ "it's".toList))) =
          .ok (some found) ∧ found.of (lead ++ "it's".toList) = "it's".toList := by
  intro conv line lead
  have hread : Line.read conv false (some line) = _ :=
    Line.read_eq_readText (sharp_ofStyle .lineSemicolon) false line
  have hremark : IsRemark .lineSemicolon "  ".toList ';' 3 "\t it's  ".toList :=
    ⟨by decide, by decide, by decide, Text.stops_cons.mpr (by decide)⟩
  have hkind : (Line.read conv false (some line)).kind = .comment := by
    rw [hread]
    exact hremark.kind_eq false
  have hlead : fillLead conv (Line.read conv false (some line)) = .ok (some lead) := by
    rw [hread]
    exact fillLead_remark hremark false
  have hbody : bounds conv (Line.read conv false (some line)) = .ok (some ⟨7, 4⟩) := by
    rw [hread]
    exact bounds_remark hremark false
  obtain ⟨lead', body, hlead', hbody', hnew, hagain⟩ :=
    @fillLead_refills .lineSemicolon (by decide) false line hkind
  obtain rfl : lead = lead' := Option.some.inj (Except.ok.inj (hlead.symm.trans hlead'))
  obtain rfl : (⟨7, 4⟩ : Span) = body := Option.some.inj (Except.ok.inj (hbody.symm.trans hbody'))
  obtain ⟨hkind', hstart, hdepth, hdoc, -, hfill⟩ := hnew "'; x".toList true
  rw [hread] at hstart hdepth hdoc
  exact ⟨by decide, hkind, hlead, ⟨hkind', hstart.trans (hremark.commentStart?_eq false),
    hdepth.trans (hremark.depth_eq false), hdoc.trans (hremark.isDoc_eq false), hfill⟩,
    hagain false⟩

end Comment
end AsmColumns
