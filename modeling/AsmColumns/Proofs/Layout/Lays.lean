import AsmColumns.Proofs.Layout.Lines
import AsmColumns.Proofs.Layout.Seam

/-!
# What a line is laid out as

The layout of a line under valid settings, as a relation between the line and its layout.  A line
that is indented as a whole and a line that is cut at its comment have one description each.
-/

namespace AsmColumns

open Comment (Convention)
open Layout (setCode setFront isRigid)
open Line (Front Kind Reading IsCut readText)
open Text (allBlank)

theorem Layout.trimRight_line {conv : Convention} (hsharp : conv.Sharp) (stops : TabStops)
    (column commentColumn : Int) (r : Reading) :
    Text.trimRight (Layout.line conv stops column commentColumn r) =
      Layout.line conv stops column commentColumn r := by
  unfold Layout.line
  split
  · rfl
  · unfold Layout.commentLine
    split
    · next hmark =>
      have hink : allBlank r.text.trim = false := by
        obtain ⟨more, hmore⟩ := List.isPrefixOf_iff_prefix.mp hmark
        obtain ⟨c, mark, hc⟩ := List.exists_cons_of_ne_nil hsharp.mark_ne
        rw [Text.allBlank_trim, ← Text.allBlank_trimLeft, ← hmore, hc]
        simp [hsharp.mark_ink c (by simp [hc])]
      rw [Text.trimRight_append, hink, Text.trimRight_trim]
      rfl
    · exact Text.trimRight_trimRight _
  · split <;> exact Text.trimRight_trimRight _

namespace Settings

/-- The line has a layout, and this is it. -/
def Lays (settings : Settings) (continued : Bool) (line laid : Text) : Prop :=
  settings.page.line (settings.read continued line) = .ok laid

/-- The column that the head of a line is set in. -/
def headStop (settings : Settings) (kind : Kind) (f : Front) : Int :=
  if f.margin ≠ [] then settings.stops.nextStop f.margin.length
  else if kind = .directive then 0
  else settings.stops.first

section lays

variable {settings : Settings} {continued : Bool} {text laid : Text}

theorem lays_iff (hvalid : settings.Valid) :
    settings.Lays continued text laid ↔
      let r := readText (.ofStyle settings.style) continued text
      let column := settings.page.column r
      Layout.isTooWide (.ofStyle settings.style) settings.stops column settings.commentColumn r =
          false ∧
        Layout.line (.ofStyle settings.style) settings.stops column settings.commentColumn r =
          laid := by
  rw [Lays, page_line_eq hvalid]
  simp only
  split
  · next hwide => simp [hwide]
  · next hwide => simp [hwide]

theorem Lays.trimRight_eq (hvalid : settings.Valid) (h : settings.Lays continued text laid) :
    laid.trimRight = laid := by
  obtain ⟨_, rfl⟩ := (lays_iff hvalid).mp h
  exact Layout.trimRight_line (Comment.sharp_ofStyle settings.style) ..

theorem column_of_kind (settings : Settings) (continued : Bool) (text : Text) :
    let r := readText (.ofStyle settings.style) continued text
    (r.kind = .label ∨ r.kind = .directive → settings.page.column r = 0) ∧
      (r.kind = .operation ∨ r.kind = .unknown →
        settings.page.column r = settings.stops.first) := by
  intro r
  have hdegraded : r.degraded = false := Line.degraded_readText ..
  have hcolumn : settings.page.column r = _ := Layout.column_whole _ _ _ r
  rw [hcolumn, if_neg (by simp [hdegraded])]
  constructor
  · rintro (hkind | hkind) <;> rw [hkind]
  · rintro (hkind | hkind) <;> rw [hkind]

/-- The line is indented to a column as a whole. -/
structure Indents (settings : Settings) (continued : Bool) (text : Text) (column : Int) :
    Prop where
  rigid : isRigid (readText (.ofStyle settings.style) continued text) = true
  ne_blank : (readText (.ofStyle settings.style) continued text).kind ≠ .blank
  ne_comment : (readText (.ofStyle settings.style) continued text).kind ≠ .comment
  column_eq : settings.page.column (readText (.ofStyle settings.style) continued text) = column

theorem indents_of_unknown
    (hkind : (readText (.ofStyle settings.style) continued text).kind = .unknown) :
    settings.Indents continued text settings.stops.first := by
  refine ⟨?_, by simp [hkind], by simp [hkind], ?_⟩
  · simp [isRigid, hkind]
  · exact (column_of_kind settings continued text).2 (.inr hkind)

theorem Indents.lays_iff {column : Int} (hvalid : settings.Valid)
    (h : settings.Indents continued text column) :
    settings.Lays continued text laid ↔
      column ≤ Text.maxRun ∧ Text.trimRight (Text.spaces column ++ text.trim) = laid := by
  rw [Settings.lays_iff hvalid]
  simp only
  rw [Layout.line_of_isRigid h.ne_blank h.ne_comment h.rigid, Line.text_readText,
    Layout.isTooWide, h.column_eq]
  cases hkind : (readText (.ofStyle settings.style) continued text).kind with
  | blank => exact absurd hkind h.ne_blank
  | comment => exact absurd hkind h.ne_comment
  | label | directive | operation | unknown => simp [h.rigid]

/-- A line that is indented is its own layout if it is indented to the same column again. -/
theorem Indents.lays_self {column : Int} (hvalid : settings.Valid)
    (h : settings.Indents continued text column) (h' : settings.Indents continued laid column)
    (hlays : settings.Lays continued text laid) : settings.Lays continued laid laid := by
  obtain ⟨hwide, hlaid⟩ := (h.lays_iff hvalid).mp hlays
  rw [h'.lays_iff hvalid]
  refine ⟨hwide, ?_⟩
  rw [← hlaid, Text.trim_trimRight, Text.trim_lead (Text.allBlank_spaces _), Text.trim_trim]

end lays

section cut

variable {settings : Settings} {continued : Bool} {text laid body tail : Text} {kind : Kind}
  {f : Front} {tailMarks : List Bool}
  (h : IsCut (.ofStyle settings.style) continued text kind f body tail tailMarks)
include h

theorem headStop_eq :
    (if f.margin = [] then settings.page.column (readText (.ofStyle settings.style) continued text)
      else settings.stops.nextStop f.margin.length) = settings.headStop kind f := by
  obtain ⟨hmargin, hfirst⟩ := column_of_kind settings continued text
  rw [h.kind_eq] at hmargin hfirst
  unfold headStop
  by_cases hne : f.margin = []
  · rcases h.fits.kind_eq with rfl | rfl | rfl
    · simp [hne, hmargin]
    · exact absurd hne (Layout.margin_ne_nil_of_label h.fits).2
    · simp [hne, hfirst]
  · simp [hne]

theorem isTooWide_of_cut :
    Layout.isTooWide (.ofStyle settings.style) settings.stops
        (settings.page.column (readText (.ofStyle settings.style) continued text))
        settings.commentColumn (readText (.ofStyle settings.style) continued text) = false ↔
      (f.head ≠ [] → settings.headStop kind f ≤ Text.maxRun) ∧
      (tail ≠ [] →
        (setCode f (settings.headStop kind f) body).length < settings.commentColumn →
        settings.commentColumn ≤ Text.maxRun) := by
  have hset : ∀ column, Layout.isTooWide (.ofStyle settings.style) settings.stops column
      settings.commentColumn (readText (.ofStyle settings.style) continued text) =
      Layout.isSetTooWide settings.stops column settings.commentColumn
        (readText (.ofStyle settings.style) continued text) := by
    intro column
    unfold Layout.isTooWide
    rw [h.kind_eq, h.not_isRigid]
    rcases h.fits.kind_eq with rfl | rfl | rfl <;> rfl
  rw [hset, Layout.isSetTooWide, Layout.head?_readText h, Layout.headColumn_eq h,
    Layout.codeFields_eq h, headStop_eq h, h.commentStart?]
  by_cases hhead : f.head = [] <;> by_cases htail : tail = [] <;> simp [hhead, htail]

theorem lays_iff_of_cut (hvalid : settings.Valid) :
    settings.Lays continued text laid ↔
      (f.head ≠ [] → settings.headStop kind f ≤ Text.maxRun) ∧
      (tail ≠ [] →
        (setCode f (settings.headStop kind f) body).length < settings.commentColumn →
        settings.commentColumn ≤ Text.maxRun) ∧
      setFront f (settings.headStop kind f) settings.commentColumn body tail ++ tail.trimRight =
        laid := by
  rw [lays_iff hvalid]
  simp only
  rw [isTooWide_of_cut h, Layout.line_eq_setFront h (Comment.sharp_ofStyle settings.style),
    headStop_eq h, and_assoc]

end cut

end Settings

end AsmColumns
