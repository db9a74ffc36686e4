import AsmColumns.Proofs.Line.Parts
import AsmColumns.Proofs.Session.Recall

/-!
# The extent of a block comment

Where comments can be closed, each of them runs from its opening delimiter to the end of the first
closing delimiter behind that, or to the end of the line.  The opening delimiter is passed over
before the search, so that it shares no character with the closing one.  The comment that a line is
entered in has no opening delimiter there, and the search starts at the margin.

Both are stated of the offsets of the whole line.  The scan is followed character by character;
what is left of the line is the line from the offset that the scan has reached.
-/

namespace AsmColumns

/-! ## First occurrences -/

/-- The first occurrence of `piece` at or behind `start`. -/
structure Text.FirstAt (piece text : Text) (start i : Nat) : Prop where
  start_le : start ≤ i
  occurs : piece <+: text.drop i
  first : ∀ j, start ≤ j → j < i → ¬ piece <+: text.drop j

/-- No occurrence of `piece` at or behind `start`. -/
def Text.NoneFrom (piece text : Text) (start : Nat) : Prop :=
  ∀ j, start ≤ j → ¬ piece <+: text.drop j

namespace Text

variable {piece text : Text} {start i n : Nat}

theorem firstAt_of_offsetOf? (h : offsetOf? piece text = some i) : FirstAt piece text 0 i := by
  induction text generalizing i with
  | nil =>
      rw [offsetOf?] at h
      split at h
      · next hempty =>
        obtain rfl : piece = [] := by simpa using hempty
        cases h
        exact ⟨le_rfl, List.nil_prefix, fun j _ hj => absurd hj (Nat.not_lt_zero j)⟩
      · cases h
  | cons c rest ih =>
      rw [offsetOf?] at h
      split at h
      · next hhere =>
        cases h
        exact ⟨le_rfl, List.isPrefixOf_iff_prefix.mp hhere,
          fun j _ hj => absurd hj (Nat.not_lt_zero j)⟩
      · next hhere =>
        obtain ⟨k, hk, rfl⟩ := Option.map_eq_some_iff.mp h
        have hrest := ih hk
        refine ⟨Nat.zero_le _, hrest.occurs, fun j _ hj => ?_⟩
        cases j with
        | zero => simpa using hhere
        | succ j => exact hrest.first j (Nat.zero_le _) (by omega)

theorem noneFrom_of_offsetOf? (h : offsetOf? piece text = none) : NoneFrom piece text 0 := by
  intro j _ hj
  have hinfix : piece <:+: text := hj.isInfix.trans (List.drop_suffix j text).isInfix
  rw [← occursIn_iff, occursIn, h] at hinfix
  cases hinfix

/-- An occurrence in what is left of a text, moved to its offset in the text. -/
theorem FirstAt.of_drop (h : FirstAt piece (text.drop start) 0 n) :
    FirstAt piece text start (start + n) := by
  refine ⟨Nat.le_add_right .., ?_, fun j hstart hj => ?_⟩
  · simpa [List.drop_drop] using h.occurs
  · have hnot := h.first (j - start) (Nat.zero_le _) (by omega)
    rwa [List.drop_drop, Nat.add_sub_cancel' hstart] at hnot

theorem NoneFrom.of_drop (h : NoneFrom piece (text.drop start) 0) : NoneFrom piece text start := by
  intro j hstart
  have hnot := h (j - start) (Nat.zero_le _)
  rwa [List.drop_drop, Nat.add_sub_cancel' hstart] at hnot

theorem FirstAt.not_noneFrom (h : FirstAt piece text start i) : ¬ NoneFrom piece text start :=
  fun hnone => hnone i h.start_le h.occurs

end Text

namespace Comment

/-! ## The end of a comment -/

/-- A comment whose text starts at `start` ends behind the first closing delimiter from there on,
and at the end of the line if there is none. -/
inductive EndsAt (conv : Convention) (text : Text) (start : Nat) : Nat → Prop where
  | closed {i : Nat} : Text.FirstAt conv.closing text start i →
      EndsAt conv text start (i + conv.closing.length)
  | unclosed : Text.NoneFrom conv.closing text start → EndsAt conv text start text.length

section lengthToClose

variable {conv : Convention} {text : Text} {start n : Nat}

theorem firstAt_of_lengthToClose? (h : lengthToClose? conv (text.drop start) = some n) :
    ∃ i, Text.FirstAt conv.closing text start i ∧ start + n = i + conv.closing.length := by
  obtain ⟨i, hi, rfl⟩ := Option.map_eq_some_iff.mp h
  exact ⟨start + i, (Text.firstAt_of_offsetOf? hi).of_drop, by omega⟩

theorem noneFrom_of_lengthToClose? (h : lengthToClose? conv (text.drop start) = none) :
    Text.NoneFrom conv.closing text start :=
  (Text.noneFrom_of_offsetOf? (Option.map_eq_none_iff.mp h)).of_drop

end lengthToClose

/-! ## Comments that open on the line -/

/-- The comments of a line that open on it: each starts with the opening delimiter and ends where
it should, and the last one is left open if it is not closed. -/
structure Opened (conv : Convention) (text : Text) (spans : List Span) (leftOpen : Bool) :
    Prop where
  starts : ∀ span ∈ spans, conv.mark <+: span.of text
  ends : ∀ span ∈ spans, EndsAt conv text (span.start + conv.mark.length) span.stop
  leftOpen_iff : leftOpen = true ↔ ∃ last, spans.getLast? = some last ∧
    Text.NoneFrom conv.closing text (last.start + conv.mark.length)

section opened

variable {conv : Convention} {text : Text} {span : Span} {spans : List Span} {leftOpen : Bool}

theorem opened_nil : Opened conv text [] false :=
  ⟨by simp, by simp, by simp⟩

/-- A closed comment before others says nothing about the end of the line. -/
theorem leftOpen_iff_cons {unclosed : Span → Prop} (hspan : ¬ unclosed span)
    (h : leftOpen = true ↔ ∃ last, spans.getLast? = some last ∧ unclosed last) :
    leftOpen = true ↔ ∃ last, (span :: spans).getLast? = some last ∧ unclosed last := by
  rw [h]
  cases spans with
  | nil => simp [hspan]
  | cons next later => simp [List.getLast?_cons_cons]

theorem mark_prefix_of (hmark : conv.mark <+: text.drop span.start)
    (hlength : conv.mark.length ≤ span.length) : conv.mark <+: span.of text := by
  rw [Span.of, Text.slice, List.prefix_take_iff]
  refine ⟨hmark, ?_⟩
  rw [Span.stop]
  omega

/-- A comment that is not closed is the last one. -/
theorem opened_unclosed (hmark : conv.mark <+: text.drop span.start)
    (hnone : Text.NoneFrom conv.closing text (span.start + conv.mark.length))
    (hstop : span.stop = text.length) : Opened conv text [span] true := by
  have hlength : conv.mark.length ≤ span.length := by
    have hle : conv.mark.length ≤ text.length - span.start := by simpa using hmark.length_le
    rw [Span.stop] at hstop
    omega
  refine ⟨?_, ?_, by simpa using hnone⟩
  · simpa using mark_prefix_of hmark hlength
  · rw [List.forall_mem_singleton, hstop]
    exact .unclosed hnone

theorem Opened.cons {i : Nat} (h : Opened conv text spans leftOpen)
    (hmark : conv.mark <+: text.drop span.start)
    (hfirst : Text.FirstAt conv.closing text (span.start + conv.mark.length) i)
    (hstop : span.stop = i + conv.closing.length) :
    Opened conv text (span :: spans) leftOpen := by
  have hlength : conv.mark.length ≤ span.length := by
    have := hfirst.start_le
    rw [Span.stop] at hstop
    omega
  refine ⟨?_, ?_, leftOpen_iff_cons hfirst.not_noneFrom h.leftOpen_iff⟩
  · exact List.forall_mem_cons.mpr ⟨mark_prefix_of hmark hlength, h.starts⟩
  · refine List.forall_mem_cons.mpr ⟨?_, h.ends⟩
    rw [hstop]
    exact .closed hfirst

end opened

theorem drop_succ_of_drop {text rest : Text} {c : Char} {offset : Nat}
    (h : text.drop offset = c :: rest) : text.drop (offset + 1) = rest := by
  rw [← List.drop_drop, h]
  rfl

/-- The scan, followed from the offset it has reached. -/
theorem opened_scanFrom {conv : Convention} (hblock : conv.isBlock = true) {text : Text}
    (skip : Nat) (state : Quoting) (before : Option Char) (offset : Nat) (rest : Text)
    (hrest : text.drop offset = rest) :
    Opened conv text (scanFrom conv skip state before offset rest).spans
      (scanFrom conv skip state before offset rest).leftOpen := by
  have hmark : ∀ {before : Option Char} {offset : Nat} {rest : Text}, text.drop offset = rest →
      opensAt conv before rest = true → conv.mark <+: text.drop offset := by
    rintro before offset rest rfl hopens
    rw [opensAt, Bool.and_eq_true, List.isPrefixOf_iff_prefix] at hopens
    exact hopens.1
  fun_induction scanFrom conv skip state before offset rest with
  | case1 => exact opened_nil
  | case2 state before offset c rest skip ih => exact ih (drop_succ_of_drop hrest)
  | case3 state before offset c rest next hnext ih => exact ih (drop_succ_of_drop hrest)
  | case4 state before offset c rest hnext hopens hblock' hregion =>
      rw [regionLength?, Option.map_eq_none_iff, ← hrest, List.drop_drop] at hregion
      refine opened_unclosed (hmark hrest hopens) (noneFrom_of_lengthToClose? hregion) ?_
      have hlength := congrArg List.length hrest
      rw [List.length_drop, List.length_cons] at hlength
      simp only [Span.stop]
      omega
  | case5 state before offset c rest hnext hopens hblock' length hregion later ih =>
      rw [regionLength?, ← hrest, List.drop_drop, Option.map_eq_some_iff] at hregion
      obtain ⟨n, hclose, rfl⟩ := hregion
      obtain ⟨i, hfirst, hi⟩ := firstAt_of_lengthToClose? hclose
      exact (ih (drop_succ_of_drop hrest)).cons (hmark hrest hopens) hfirst
        (by rw [← hi, Span.stop, Nat.add_assoc])
  | case6 => simp_all
  | case7 state before offset c rest hnext hopens ih => exact ih (drop_succ_of_drop hrest)

/-! ## Lines without quotes -/

/-- No character of the line plays a part in quoting. -/
def isUnquoted (text : Text) : Bool :=
  text.all fun c => c != '\\' && c != '"' && c != '\''

theorem step_of_isUnquoted {text rest : Text} {c : Char} {offset : Nat}
    (hplain : isUnquoted text = true) (hrest : text.drop offset = c :: rest)
    (before : Option Char) : Quoting.step {} before c rest = none := by
  have hc : c ∈ text := List.mem_of_mem_drop (hrest ▸ List.mem_cons_self)
  have hplain := List.all_eq_true.mp hplain c hc
  simp only [Bool.and_eq_true, bne_iff_ne] at hplain
  simp [Quoting.step, hplain]

theorem lt_length_of_prefix {piece text : Text} {i : Nat} (hne : piece ≠ [])
    (h : piece <+: text.drop i) : i < text.length := by
  have hpos := List.length_pos_iff.mpr hne
  have hle := h.length_le
  rw [List.length_drop] at hle
  omega

/-- Without quotes every opening delimiter that is passed opens a comment or stands in one. -/
theorem covers_scanFrom {conv : Convention} (hstyle : conv.style ≠ .lineStar)
    (hne : conv.mark ≠ []) {text : Text} (hplain : isUnquoted text = true) {i : Nat}
    (hmark : conv.mark <+: text.drop i) (skip : Nat) (state : Quoting) (hstate : state = {})
    (before : Option Char) (offset : Nat) (rest : Text) (hrest : text.drop offset = rest)
    (hi : offset + skip ≤ i) :
    Span.covers (scanFrom conv skip state before offset rest).spans i = true := by
  have hlt : i < text.length := lt_length_of_prefix hne hmark
  have hline : ∀ {offset : Nat} {c : Char} {rest : Text}, text.drop offset = c :: rest →
      offset ≤ i → Span.covers [⟨offset, rest.length + 1⟩] i = true := by
    intro offset c rest hrest hi
    have hlength := congrArg List.length hrest
    rw [List.length_drop, List.length_cons] at hlength
    simp only [Span.covers, List.any_cons, List.any_nil, Bool.or_false, Span.contains_iff,
      Span.stop]
    omega
  fun_induction scanFrom conv skip state before offset rest with
  | case1 =>
      have := List.drop_eq_nil_iff.mp hrest
      omega
  | case2 state before offset c rest skip ih =>
      exact ih hstate (drop_succ_of_drop hrest) (by omega)
  | case3 state before offset c rest next hnext ih =>
      rw [hstate, step_of_isUnquoted hplain hrest] at hnext
      cases hnext
  | case4 state before offset c rest hnext hopens hblock hregion => exact hline hrest hi
  | case5 state before offset c rest hnext hopens hblock length hregion later ih =>
      have hpos := List.length_pos_iff.mpr hne
      obtain ⟨n, -, rfl⟩ := Option.map_eq_some_iff.mp hregion
      rw [Span.covers, List.any_cons, Bool.or_eq_true, Span.contains_iff]
      by_cases hin : i < offset + (conv.mark.length + n)
      · exact .inl ⟨hi, hin⟩
      · exact .inr (ih rfl (drop_succ_of_drop hrest) (by omega))
  | case6 state before offset c rest hnext hopens hblock => exact hline hrest hi
  | case7 state before offset c rest hnext hopens ih =>
      refine ih hstate (drop_succ_of_drop hrest) ?_
      have : i ≠ offset := by
        rintro rfl
        refine hopens ?_
        rw [opensAt, ← hrest, Bool.and_eq_true, List.isPrefixOf_iff_prefix]
        exact ⟨hmark, by simp [hstyle]⟩
      omega

/-! ## The comments of a line -/

/-- Where the search for the end of a comment starts: behind its opening delimiter, which the first
comment of a line that is entered inside it does not have. -/
def searchStart (conv : Convention) (continued : Bool) (number : Nat) (span : Span) : Nat :=
  if continued && number == 0 then 0 else span.start + conv.mark.length

/-- The comments of a line, given whether the line is entered inside one, and whether a comment is
left open at its end. -/
structure Delimits (conv : Convention) (continued : Bool) (text : Text) (spans : List Span)
    (leftOpen : Bool) : Prop where
  entered : continued = true → text ≠ [] → spans.head?.map Span.start = some 0
  starts : ∀ number span, spans[number]? = some span → ¬ (continued = true ∧ number = 0) →
    conv.mark <+: span.of text
  ends : ∀ number span, spans[number]? = some span →
    EndsAt conv text (searchStart conv continued number span) span.stop
  leftOpen_iff : leftOpen = true ↔
    (∃ last, spans.getLast? = some last ∧
      Text.NoneFrom conv.closing text (searchStart conv continued (spans.length - 1) last)) ∨
    (continued = true ∧ text = [])
  exposed : isUnquoted text = true → ∀ i, conv.mark <+: text.drop i → Span.covers spans i = true

section delimits

variable {conv : Convention} {text : Text} {spans : List Span} {leftOpen : Bool}

/-- The comments of a line that is entered as code. -/
theorem Opened.delimits (h : Opened conv text spans leftOpen)
    (hexposed : isUnquoted text = true → ∀ i, conv.mark <+: text.drop i →
      Span.covers spans i = true) : Delimits conv false text spans leftOpen where
  entered := by simp
  starts := fun number span hspan _ => h.starts span (List.mem_of_getElem? hspan)
  ends := fun number span hspan => h.ends span (List.mem_of_getElem? hspan)
  leftOpen_iff := by simpa [searchStart] using h.leftOpen_iff
  exposed := hexposed

/-- The comments of a line that is entered inside a comment which does not end on it. -/
theorem delimits_unclosed (hne : conv.mark ≠ [])
    (hnone : Text.NoneFrom conv.closing text 0) :
    Delimits conv true text (if text.isEmpty then [] else [⟨0, text.length⟩]) true := by
  have hlt : ∀ i, conv.mark <+: text.drop i → i < text.length := fun i hmark =>
    lt_length_of_prefix hne hmark
  cases text with
  | nil =>
      refine ⟨by simp, by simp, by simp, by simp, ?_⟩
      intro _ i hmark
      exact absurd (hlt i hmark) (Nat.not_lt_zero i)
  | cons c rest =>
      have hfirst : ∀ {number : Nat} {span : Span},
          [(⟨0, (c :: rest).length⟩ : Span)][number]? = some span →
          number = 0 ∧ span = ⟨0, (c :: rest).length⟩ := by
        intro number span hspan
        rw [List.getElem?_singleton] at hspan
        split at hspan
        · next hzero => exact ⟨hzero, (Option.some.inj hspan).symm⟩
        · cases hspan
      refine ⟨by simp, ?_, ?_, ?_, ?_⟩
      · intro number span hspan hother
        exact absurd ⟨rfl, (hfirst hspan).1⟩ hother
      · intro number span hspan
        obtain ⟨rfl, rfl⟩ := hfirst hspan
        rw [Span.stop, Nat.zero_add]
        exact .unclosed hnone
      · exact iff_of_true rfl (.inl ⟨_, rfl, hnone⟩)
      · intro _ i hmark
        simp only [List.isEmpty_cons, Bool.false_eq_true, if_false, Span.covers, List.any_cons,
          List.any_nil, Bool.or_false, Span.contains_iff, Span.stop, Nat.zero_add]
        exact ⟨Nat.zero_le i, hlt i hmark⟩

/-- The comments of a line that is entered inside a comment which ends on it. -/
theorem Opened.delimits_closed {i : Nat} (h : Opened conv text spans leftOpen)
    (hfirst : Text.FirstAt conv.closing text 0 i) (hne : conv.closing ≠ [])
    (hexposed : isUnquoted text = true → ∀ j, i + conv.closing.length ≤ j →
      conv.mark <+: text.drop j → Span.covers spans j = true) :
    Delimits conv true text (⟨0, i + conv.closing.length⟩ :: spans) leftOpen := by
  have htext : text ≠ [] := by
    have hlt := lt_length_of_prefix hne hfirst.occurs
    exact List.ne_nil_of_length_pos (by omega)
  refine ⟨by simp, ?_, ?_, ?_, ?_⟩
  · intro number span hspan hother
    cases number with
    | zero => exact absurd ⟨rfl, rfl⟩ hother
    | succ number => exact h.starts span (List.mem_of_getElem? hspan)
  · intro number span hspan
    cases number with
    | zero =>
        obtain rfl : ⟨0, i + conv.closing.length⟩ = span := Option.some.inj hspan
        rw [Span.stop, Nat.zero_add]
        exact .closed hfirst
    | succ number => exact h.ends span (List.mem_of_getElem? hspan)
  · have hlast := h.leftOpen_iff
    cases spans with
    | nil => simpa [searchStart, htext, hfirst.not_noneFrom] using hlast
    | cons next later => simpa [searchStart, htext, List.getLast?_cons_cons] using hlast
  · intro hplain j hmark
    rw [Span.covers, List.any_cons, Bool.or_eq_true, Span.contains_iff, Span.stop, Nat.zero_add]
    by_cases hj : j < i + conv.closing.length
    · exact .inl ⟨Nat.zero_le j, hj⟩
    · exact .inr (hexposed hplain j (Nat.le_of_not_lt hj) hmark)

/-- The scan of a line finds its comments. -/
theorem delimits_scan (hblock : conv.isBlock = true) (hstyle : conv.style ≠ .lineStar)
    (hne : conv.mark ≠ []) (continued : Bool) (text : Text) :
    Delimits conv continued text (scan conv continued text).spans
      (scan conv continued text).leftOpen := by
  unfold scan
  rw [hblock, Bool.and_true]
  cases continued with
  | false =>
      refine (opened_scanFrom hblock 0 {} none 0 text rfl).delimits fun hplain i hmark => ?_
      exact covers_scanFrom hstyle hne hplain hmark 0 {} rfl none 0 text rfl (Nat.zero_le _)
  | true =>
      cases hclose : lengthToClose? conv text with
      | none => exact delimits_unclosed hne (noneFrom_of_lengthToClose? hclose)
      | some length =>
          rw [← List.drop_zero (l := text)] at hclose
          obtain ⟨i, hfirst, hi⟩ := firstAt_of_lengthToClose? hclose
          obtain rfl : length = i + conv.closing.length := by omega
          refine (opened_scanFrom hblock _ {} none 0 text rfl).delimits_closed hfirst
            (closing_ne_of_isBlock hblock) fun hplain j hj hmark => ?_
          exact covers_scanFrom hstyle hne hplain hmark _ {} rfl none 0 text rfl (by omega)

end delimits

end Comment
end AsmColumns
