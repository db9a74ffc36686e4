import AsmColumns.Proofs.Layout.Column
import AsmColumns.Proofs.Layout.Cut

/-!
# The fields of a line that is set in columns

The layout of a cut line, in its pieces: what stands at the margin, padding, the head, the operand
behind one space, padding and the comment.
-/

namespace AsmColumns
namespace Layout

open Comment (Convention Scans Spells blanked scan)
open Line (Front Fits Kind Reading IsCut Marked readText unsorted IsCondition)
open Text (isBlank isWord allBlank)

section pieces

variable {kind : Kind} {f : Front} {rest : Text}

theorem allBlank_lead (h : Fits kind f rest) : allBlank f.lead = true := by
  cases h with
  | directive hlead => exact hlead
  | operation _ hlead => exact hlead
  | label | labelled | conditional => rfl

theorem allBlank_gap (h : Fits kind f rest) : allBlank f.gap = true := by
  cases h with
  | labelled _ hgap =>
      exact Text.allBlank_iff.mpr fun c hc => Text.isBlank_of_isPad (hgap c hc)
  | conditional _ _ hgap => exact hgap
  | directive | label | operation => rfl

theorem ink_front (h : Fits kind f rest) :
    Text.ink f.text = Text.ink f.margin ++ Text.ink f.head := by
  simp [Front.text, allBlank_lead h, allBlank_gap h]

theorem isBlank_of_mem_condition {condition : Text} (h : IsCondition condition) {c : Char}
    (hc : c ∈ condition) : isBlank c = false := by
  obtain ⟨word, close, _, hword, hclose, rfl⟩ := h
  simp only [List.mem_cons, List.mem_append] at hc
  rcases hc with rfl | hc | hc
  · decide
  · exact Text.isBlank_of_isWord (hword c hc)
  · rcases hclose with rfl | rfl
    · cases hc
    · rw [List.mem_singleton.mp hc]
      decide

theorem isBlank_of_mem_margin (h : Fits kind f rest) {c : Char} (hc : c ∈ f.margin) :
    isBlank c = false := by
  rcases h.margin_cases with ⟨_, _, _, hink⟩ | ⟨_, _, hcondition⟩ | ⟨_, hnil⟩
  · exact hink c hc
  · exact isBlank_of_mem_condition hcondition hc
  · rw [hnil] at hc
    cases hc

theorem margin_ne_nil_of_label (h : Fits .label f rest) : f.lead = [] ∧ f.margin ≠ [] := by
  rcases h.margin_cases with ⟨_, hlead, hne, _⟩ | ⟨hkind, _⟩ | ⟨hkind, _⟩
  · exact ⟨hlead, hne⟩
  · cases hkind
  · exact absurd rfl hkind

theorem margin_eq_nil_of_directive (h : Fits .directive f rest) : f.margin = [] := by
  cases h
  rfl

/-- Behind its first blanks a front starts with ink. -/
theorem exists_ink_front (h : Fits kind f rest) :
    ∃ c more, f.margin ++ (f.gap ++ f.head) = c :: more ∧ isBlank c = false := by
  have hfirst : f.margin ≠ [] ∨ (f.gap = [] ∧ f.head ≠ []) := by
    cases h with
    | directive => exact .inr ⟨rfl, List.cons_ne_nil _ _⟩
    | label hlabel hrest => exact .inl (margin_ne_nil_of_label (.label hlabel hrest)).2
    | labelled hlabel hgap hne hhead hrest =>
        exact .inl (margin_ne_nil_of_label (.labelled hlabel hgap hne hhead hrest)).2
    | operation _ _ hword => exact .inr ⟨rfl, hword.ne_nil⟩
    | conditional hcondition =>
        obtain ⟨_, _, _, _, _, rfl⟩ := hcondition
        exact .inl (List.cons_ne_nil _ _)
  cases hmargin : f.margin with
  | cons c more =>
      exact ⟨c, _, List.cons_append, isBlank_of_mem_margin h (by simp [hmargin])⟩
  | nil =>
      obtain ⟨hgap, hhead⟩ := hfirst.resolve_left (by simp [hmargin])
      obtain ⟨c, more, hmore⟩ := List.exists_cons_of_ne_nil hhead
      exact ⟨c, more, by simp [hgap, hmore], h.head_ink c (by simp [hmore])⟩

/-- A front ends with ink. -/
theorem trimRight_front (h : Fits kind f rest) (lead : Text) :
    Text.trimRight (lead ++ (f.margin ++ (f.gap ++ f.head))) =
      lead ++ (f.margin ++ (f.gap ++ f.head)) := by
  by_cases hhead : f.head = []
  · obtain ⟨rfl, _, hgap⟩ := h.kind_of_head hhead
    rw [hgap, hhead, List.append_nil, List.append_nil]
    exact Text.trimRight_append_of_ink (margin_ne_nil_of_label h).2
      (fun c hc => isBlank_of_mem_margin h hc) lead
  · have hink := Text.trimRight_append_of_ink hhead h.head_ink
    simpa using hink (lead ++ (f.margin ++ f.gap))

/-- The condition of an operation is what is left of the line before it. -/
theorem trim_of_operation (h : Fits .operation f rest) :
    Text.trim (f.lead ++ (f.margin ++ f.gap)) = f.margin := by
  rw [Text.trim_lead (allBlank_lead h), Text.trim_append_of_allBlank (allBlank_gap h),
    Text.trim_of_ink fun c hc => isBlank_of_mem_margin h hc]

theorem head?_reading (f : Front) (kind : Kind) (base : Reading) (operand : Option Span) :
    head? (f.reading kind base operand) = if f.head = [] then none else some f.headSpan := by
  by_cases hhead : f.head = [] <;> by_cases hdot : f.head.head? = some '.' <;>
    simp_all [head?, Front.reading, Front.headSpan]

end pieces

/-! ## Lines that are indented as a whole -/

section rigid

variable {conv : Convention} {continued : Bool} {text : Text}

theorem line_of_isRigid {r : Reading} (hblank : r.kind ≠ .blank) (hcomment : r.kind ≠ .comment)
    (hrigid : isRigid r = true) (stops : TabStops) (column commentColumn : Int) :
    line conv stops column commentColumn r =
      Text.trimRight (Text.spaces column ++ r.text.trim) := by
  unfold line
  cases hkind : r.kind with
  | blank => exact absurd hkind hblank
  | comment => exact absurd hkind hcomment
  | label | directive | operation | unknown => simp [hrigid]

/-- A line that is not set in columns keeps its text, up to the blanks at its ends. -/
theorem exists_lead (stops : TabStops) (column commentColumn : Int)
    (hrigid : isRigid (readText conv continued text) = true) :
    ∃ lead, allBlank lead = true ∧
      line conv stops column commentColumn (readText conv continued text) = lead ++ text.trim := by
  have hspaces : ∃ lead, allBlank lead = true ∧
      Text.trimRight (Text.spaces column ++ text.trim) = lead ++ text.trim := by
    cases hblank : allBlank text with
    | true =>
        rw [Text.trim_eq_nil_iff.mpr hblank, List.append_nil,
          Text.trimRight_of_allBlank (Text.allBlank_spaces _)]
        exact ⟨[], rfl, rfl⟩
    | false =>
        rw [Text.trimRight_append, Text.allBlank_trim, hblank, Text.trimRight_trim]
        exact ⟨_, Text.allBlank_spaces column, rfl⟩
  cases hkind : (readText conv continued text).kind with
  | blank =>
      have hblank := Line.allBlank_of_kind hkind
      refine ⟨[], rfl, ?_⟩
      simp [line, hkind, Text.trim_eq_nil_iff.mpr hblank]
  | comment =>
      simp only [line, hkind, commentLine, Line.text_readText]
      split
      · exact ⟨_, Text.allBlank_spaces column, rfl⟩
      · cases hblank : allBlank text with
        | true =>
            rw [Text.trim_eq_nil_iff.mpr hblank, Text.trimRight_of_allBlank hblank]
            exact ⟨[], rfl, rfl⟩
        | false =>
            rw [Text.trimRight_eq_lead hblank]
            exact ⟨_, Text.allBlank_takeWhile text, rfl⟩
  | label | directive | operation | unknown =>
      rw [line_of_isRigid (by simp [hkind]) (by simp [hkind]) hrigid, Line.text_readText]
      exact hspaces

end rigid

/-! ## Lines that are set in columns -/

/-- The code of a line in its columns, piece by piece. -/
def setCode (f : Front) (column : Int) (body : Text) : Text :=
  if f.head = [] then f.margin
  else f.margin.padRight column ++ (f.head ++ if allBlank body then [] else ' ' :: Text.trim body)

section cut

variable {conv : Convention} {continued : Bool} {text body tail rest : Text} {kind : Kind}
  {f : Front} {tailMarks : List Bool} (h : IsCut conv continued text kind f body tail tailMarks)
include h

theorem text_eq : (readText conv continued text).text = f.text ++ (body ++ tail) := by
  rw [Line.text_readText, h.text_eq, List.append_assoc]

theorem head?_readText :
    head? (readText conv continued text) = if f.head = [] then none else some f.headSpan := by
  rw [h.readText_eq, head?_reading]

theorem operand_readText :
    (readText conv continued text).operand =
      if f.head = [] ∨ allBlank body then none
      else some ⟨f.text.length + (body.takeWhile isBlank).length, (Text.trim body).length⟩ := by
  rw [h.readText_eq, ← h.operand?_eq]
  rfl

theorem margin_eq : margin (readText conv continued text) = f.margin := by
  have hfits := h.fits
  have htext := text_eq h
  unfold margin
  rw [htext, h.readText_eq]
  rcases hfits.kind_eq with rfl | rfl | rfl
  · simp [Front.reading, margin_eq_nil_of_directive hfits]
  · have hspan := Line.of_span_append [] f.margin (f.gap ++ (f.head ++ (body ++ tail)))
    simpa [Front.reading, Front.text, (margin_ne_nil_of_label hfits).1] using hspan
  · obtain ⟨hne, hdot⟩ := hfits.head?_dot_iff (by decide)
    have hnodot : f.head.head? ≠ some '.' := by simpa using hdot
    have htake : (f.text ++ (body ++ tail)).take f.headSpan.start =
        f.lead ++ (f.margin ++ f.gap) := by
      have hcut : f.text ++ (body ++ tail) =
          (f.lead ++ (f.margin ++ f.gap)) ++ (f.head ++ (body ++ tail)) := by
        simp [Front.text]
      rw [hcut, List.take_left' (by simp [Front.headSpan, Nat.add_assoc])]
    simp [Front.reading, hne, hnodot, htake, trim_of_operation hfits]

theorem followsMargin_eq : followsMargin (readText conv continued text) = !f.margin.isEmpty := by
  rw [followsMargin, margin_eq h, h.readText_eq]
  have hfits := h.fits
  rcases hfits.kind_eq with rfl | rfl | rfl
  · simp [Front.reading]
  · simp [Front.reading, (margin_ne_nil_of_label hfits).2]
  · simp [Front.reading]

theorem headColumn_eq (stops : TabStops) (column : Int) :
    headColumn stops column (readText conv continued text) =
      if f.margin = [] then column else stops.nextStop f.margin.length := by
  rw [headColumn, followsMargin_eq h, margin_eq h]
  by_cases hmargin : f.margin = [] <;> simp [hmargin]

theorem codeFields_eq (stops : TabStops) (column : Int) :
    codeFields stops column (readText conv continued text) =
      setCode f (if f.margin = [] then column else stops.nextStop f.margin.length) body := by
  have htext : text = f.text ++ (body ++ tail) := by rw [h.text_eq, List.append_assoc]
  unfold codeFields setCode
  rw [head?_readText h, operand_readText h, headColumn_eq h, margin_eq h]
  by_cases hhead : f.head = []
  · simp [hhead]
  · rw [if_neg hhead]
    cases hbody : allBlank body with
    | true => simp [hhead, htext, Line.of_headSpan]
    | false =>
        have hoperand : Span.of ⟨f.text.length + (body.takeWhile isBlank).length,
            (Text.trim body).length⟩ (f.text ++ (body ++ tail)) = Text.trim body := by
          have hspan := Line.of_span_append (f.text ++ body.takeWhile isBlank) (Text.trim body)
            (Text.takeTail isBlank (Text.trimLeft body) ++ tail)
          have hcut : f.text ++ (body ++ tail) = (f.text ++ body.takeWhile isBlank) ++
              (Text.trim body ++ (Text.takeTail isBlank (Text.trimLeft body) ++ tail)) := by
            conv_lhs => rw [← Text.lead_trim_tail body]
            simp
          rwa [← hcut, List.length_append] at hspan
        simp [hhead, htext, Line.of_headSpan, hoperand]

theorem fields_eq (stops : TabStops) (column commentColumn : Int) :
    fields stops column commentColumn (readText conv continued text) =
      let code := setCode f (if f.margin = [] then column else stops.nextStop f.margin.length) body
      if tail = [] then code else padToComment commentColumn code ++ Text.trimRight tail := by
  have htext := text_eq h
  rw [fields, codeFields_eq h, h.commentStart?]
  by_cases htail : tail = []
  · simp [htail]
  · simp only [htail, if_false, htext]
    rw [← List.append_assoc, List.drop_left]

omit h in
theorem setCode_ne_nil (hfits : Fits kind f rest) (column : Int) (body : Text) :
    setCode f column body ≠ [] := by
  unfold setCode
  split
  · rename_i hhead
    obtain ⟨rfl, _⟩ := hfits.kind_of_head hhead
    exact (margin_ne_nil_of_label hfits).2
  · rename_i hhead
    simp [hhead]

omit h in
theorem trimRight_setCode (hfits : Fits kind f rest) (column : Int) (body : Text) :
    Text.trimRight (setCode f column body) = setCode f column body := by
  have hhead := Text.trimRight_of_ink hfits.head_ink
  unfold setCode
  split
  · exact Text.trimRight_of_ink fun c hc => isBlank_of_mem_margin hfits hc
  · rename_i hne
    have hink : allBlank f.head = false := by
      rw [← hhead] at hne
      rw [Bool.eq_false_iff]
      exact fun hblank => hne (Text.trimRight_of_allBlank hblank)
    cases hbody : allBlank body with
    | true => simp [Text.trimRight_append, hink, hhead]
    | false =>
        have hoperand : Text.trimRight (' ' :: Text.trim body) = ' ' :: Text.trim body := by
          have happend := Text.trimRight_append [' '] (Text.trim body)
          simpa [hbody, Text.trimRight_trim] using happend
        simp [Text.trimRight_append, hink, hbody, hoperand]

theorem line_eq (hsharp : conv.Sharp) (stops : TabStops) (column commentColumn : Int) :
    line conv stops column commentColumn (readText conv continued text) =
      let code := setCode f (if f.margin = [] then column else stops.nextStop f.margin.length) body
      if tail = [] then code else padToComment commentColumn code ++ Text.trimRight tail := by
  have hline : line conv stops column commentColumn (readText conv continued text) =
      Text.trimRight (fields stops column commentColumn (readText conv continued text)) := by
    unfold line
    rw [h.kind_eq, h.not_isRigid]
    rcases h.fits.kind_eq with rfl | rfl | rfl <;> rfl
  rw [hline, fields_eq h]
  simp only
  split
  · exact trimRight_setCode h.fits ..
  · rename_i htail
    have hink : allBlank tail = false := by
      obtain ⟨c, more, rfl, hc⟩ := h.ink_tail hsharp htail
      simp [hc]
    rw [Text.trimRight_append, Text.allBlank_trimRight, hink, Text.trimRight_trimRight]
    rfl

end cut

end Layout
end AsmColumns
