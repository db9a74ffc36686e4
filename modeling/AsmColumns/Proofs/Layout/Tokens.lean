import AsmColumns.Proofs.Layout.Lines
import AsmColumns.Proofs.Layout.Seam
import AsmColumns.Proofs.Text.Tokens

/-!
# The tokens of a line that is laid out

The layout of an operation or of a directive writes blanks behind the head and before the comment.
Its tokens are those of the pieces of the line between these places, so it splits a token where
ink meets ink at one of them, and nowhere else; it never joins two.
-/

namespace AsmColumns
namespace Layout

open Comment (Convention)
open Line (Front Fits Kind Reading IsCut readText)
open Text (allBlank cutAt tokens touch)

/-- The offsets at which the layout of a line puts a blank: behind the head, and before the
comment. -/
def breaks (r : Reading) : List Nat :=
  if isRigid r then []
  else ((head? r).map Span.stop).toList ++ r.commentStart?.toList

section cut

variable {conv : Convention} {continued : Bool} {text body tail rest : Text} {kind : Kind}
  {f : Front} {tailMarks : List Bool}

theorem margin_apart (h : Fits kind f rest) (hkind : kind ≠ .label) :
    f.margin = [] ∨ f.gap ≠ [] := by
  cases h with
  | directive => exact .inl rfl
  | label => exact absurd rfl hkind
  | labelled => exact absurd rfl hkind
  | operation => exact .inl rfl
  | conditional _ hgap => exact .inr hgap

theorem head_ne_nil (h : Fits kind f rest) (hkind : kind ≠ .label) : f.head ≠ [] := by
  intro hhead
  exact hkind (h.kind_of_head hhead).1

/-- Blanks between the margin and the head, if there is a margin, keep the two apart. -/
theorem tokens_margin {margin gap : Text} (hgap : allBlank gap) (hne : margin = [] ∨ gap ≠ [])
    (later : Text) : tokens (margin ++ (gap ++ later)) = tokens margin ++ tokens later := by
  by_cases hnil : gap = []
  · have hmargin := hne.resolve_right (not_not_intro hnil)
    rw [hmargin, hnil]
    rfl
  · exact Text.tokens_append_gap hnil hgap margin later

theorem tokens_front (h : Fits kind f rest) (hkind : kind ≠ .label) :
    tokens f.text = tokens f.margin ++ tokens f.head := by
  rw [Front.text, Text.tokens_lead (allBlank_lead h)]
  exact tokens_margin (allBlank_gap h) (margin_apart h hkind) f.head

theorem tokens_setCode (hhead : f.head ≠ []) {column : Int}
    (hcolumn : f.margin = [] ∨ f.margin.length < column) (body : Text) :
    tokens (setCode f column body) = (tokens f.margin ++ tokens f.head) ++ tokens body := by
  have hpad : f.margin = [] ∨ Text.spaces (column - f.margin.length) ≠ [] := by
    apply hcolumn.imp id
    intro hlt
    rw [Ne, ← List.length_eq_zero_iff, Text.length_spaces]
    omega
  rw [setCode, if_neg hhead, Text.padRight, List.append_assoc,
    tokens_margin (Text.allBlank_spaces _) hpad, List.append_assoc]
  congr 1
  cases hbody : allBlank body with
  | true => simp [Text.tokens_of_allBlank hbody]
  | false => simp [Text.tokens_append_blank Text.isBlank_space]

theorem tokens_padToComment {code : Text} (hne : code ≠ []) (column : Int) (comment : Text) :
    tokens (padToComment column code ++ comment) = tokens code ++ tokens comment := by
  obtain ⟨pad, hpad, hblank, hcode⟩ := exists_padToComment hne column
  rw [hcode, List.append_assoc]
  exact Text.tokens_append_gap hpad hblank code comment

variable (h : IsCut conv continued text kind f body tail tailMarks) (hkind : kind ≠ .label)
include h hkind

theorem tokens_line_of_cut (hsharp : conv.Sharp) {stops : TabStops} (hwidth : 1 ≤ stops.width)
    (column commentColumn : Int) :
    tokens (line conv stops column commentColumn (readText conv continued text)) =
      tokens f.text ++ (tokens body ++ tokens tail) := by
  have hhead := head_ne_nil h.fits hkind
  have hcolumn : f.margin = [] ∨ f.margin.length <
      if f.margin = [] then column else stops.nextStop f.margin.length := by
    by_cases hmargin : f.margin = []
    · exact .inl hmargin
    · rw [if_neg hmargin]
      exact .inr (TabStops.lt_nextStop hwidth _)
  have hcode := tokens_setCode hhead hcolumn body
  rw [← tokens_front h.fits hkind] at hcode
  rw [line_eq h hsharp]
  simp only
  split
  · next htail => simp [htail, hcode]
  · rw [tokens_padToComment (setCode_ne_nil h.fits _ _), hcode, Text.tokens_trimRight,
      List.append_assoc]

theorem breaks_of_cut :
    breaks (readText conv continued text) =
      f.text.length :: if tail = [] then [] else [(f.text ++ body).length] := by
  have hhead := head_ne_nil h.fits hkind
  rw [breaks, h.not_isRigid, head?_readText h, if_neg hhead, h.commentStart?]
  by_cases htail : tail = [] <;> simp [htail, Line.Front.stop_headSpan]

theorem tokens_pieces_of_cut :
    (cutAt (breaks (readText conv continued text)) text).flatMap tokens =
      tokens f.text ++ (tokens body ++ tokens tail) := by
  rw [breaks_of_cut h hkind]
  have htext := h.text_eq
  subst htext
  by_cases htail : tail = []
  · simp [htail, cutAt, Text.cutFrom, Text.slice]
  · simp [htail, cutAt, Text.cutFrom, Text.slice]

theorem touch_breaks_of_cut :
    (∀ i ∈ breaks (readText conv continued text), touch (text.take i) (text.drop i) = false) ↔
      touch f.text (body ++ tail) = false ∧ touch (f.text ++ body) tail = false := by
  have hhead : touch (text.take f.text.length) (text.drop f.text.length) =
      touch f.text (body ++ tail) := by
    rw [h.text_eq, List.append_assoc, List.take_left, List.drop_left]
  have hcomment : touch (text.take (f.text ++ body).length) (text.drop (f.text ++ body).length) =
      touch (f.text ++ body) tail := by
    rw [h.text_eq, List.take_left, List.drop_left]
  rw [breaks_of_cut h hkind, List.forall_mem_cons, hhead]
  apply and_congr_right
  intro _
  by_cases htail : tail = []
  · have hnil : touch (f.text ++ body) [] = false := Text.touch_of_head rfl _
    simp [htail, hnil]
  · rw [if_neg htail, List.forall_mem_singleton, hcomment]

end cut

/-- A line that is no label is laid out in the tokens of its pieces. -/
theorem tokens_line {conv : Convention} (hsharp : conv.Sharp) {stops : TabStops}
    (hwidth : 1 ≤ stops.width) {continued : Bool} {text : Text}
    (hkind : (readText conv continued text).kind ≠ .label) (column commentColumn : Int) :
    let r := readText conv continued text
    let new := line conv stops column commentColumn r
    tokens new = (cutAt (breaks r) text).flatMap tokens ∧
      (tokens new = tokens text ↔
        ∀ i ∈ breaks r, touch (text.take i) (text.drop i) = false) := by
  cases hrigid : isRigid (readText conv continued text) with
  | true =>
      obtain ⟨lead, hlead, hline⟩ := exists_lead stops column commentColumn hrigid
      have hbreaks : breaks (readText conv continued text) = [] := by
        rw [breaks, if_pos hrigid]
      have htokens : tokens (lead ++ text.trim) = tokens text := by
        rw [Text.tokens_lead hlead, Text.tokens_trim]
      simp only [hline, hbreaks, htokens]
      simp [cutAt, Text.cutFrom]
  | false =>
      obtain ⟨kind, f, body, tail, tailMarks, hcut⟩ := Line.exists_cut_of_not_isRigid hrigid
      have hne : kind ≠ .label := by
        rwa [hcut.kind_eq] at hkind
      have hline := tokens_line_of_cut hcut hne hsharp hwidth column commentColumn
      have htext : text = f.text ++ (body ++ tail) := by
        rw [hcut.text_eq, List.append_assoc]
      constructor
      · rw [hline, tokens_pieces_of_cut hcut hne]
      · rw [hline, touch_breaks_of_cut hcut hne, ← Text.tokens_append_append_iff, ← htext]

end Layout
end AsmColumns
