import AsmColumns.Proofs.Layout.Page
import AsmColumns.Proofs.Session.Reachable
import AsmColumns.Proofs.Text.Lines
import Mathlib.Data.List.Forall2

/-!
# Laying out the lines of a text

Under valid settings a line is laid out, or it asks for a run of spaces that is too long.  The
layout of a line holds no newline that the line does not hold, so the lines of a text that is laid
out are the layouts of its lines, one for one.  A session lays out a text as its settings say,
whatever it has read before.
-/

namespace AsmColumns

open Comment (Convention)
open Line (Reading readText)

namespace Layout

/-! ## The characters of a line -/

theorem subset_dropTail (inClass : Char → Bool) (t : Text) : t.dropTail inClass ⊆ t := by
  intro c hc
  rw [Text.dropTail, List.mem_reverse] at hc
  exact List.mem_reverse.mp ((List.dropWhile_sublist _).subset hc)

theorem subset_trimRight (t : Text) : t.trimRight ⊆ t :=
  subset_dropTail _ t

theorem subset_trim (t : Text) : t.trim ⊆ t :=
  List.Subset.trans (subset_trimRight _) (List.dropWhile_sublist _).subset

theorem spaces_subset (column : Int) (t : Text) : Text.spaces column ⊆ ' ' :: t := by
  intro c hc
  rw [List.eq_of_mem_replicate hc]
  exact List.mem_cons_self

theorem subset_of (span : Span) (t : Text) : span.of t ⊆ t :=
  List.Subset.trans (List.take_subset _ _) (List.drop_subset _ _)

section subset

variable {r : Reading}

theorem margin_subset : margin r ⊆ r.text := by
  unfold margin
  split
  · exact subset_of _ _
  · split
    · exact List.Subset.trans (subset_trim _) (List.take_subset _ _)
    · exact List.nil_subset _

theorem codeFields_subset (stops : TabStops) (column : Int) :
    codeFields stops column r ⊆ ' ' :: r.text := by
  have hmargin : margin r ⊆ ' ' :: r.text := List.subset_cons_of_subset _ margin_subset
  have hspan : ∀ span : Span, span.of r.text ⊆ ' ' :: r.text := fun span =>
    List.subset_cons_of_subset _ (subset_of span _)
  unfold codeFields
  split
  · exact hmargin
  · next head _ =>
    have hcode : (margin r).padRight (headColumn stops column r) ++ head.of r.text ⊆
        ' ' :: r.text :=
      List.append_subset.mpr
        ⟨List.append_subset.mpr ⟨hmargin, spaces_subset _ _⟩, hspan head⟩
    simp only
    split
    · exact hcode
    · next operand _ =>
      exact List.append_subset.mpr
        ⟨hcode, List.cons_subset.mpr ⟨List.mem_cons_self, hspan operand⟩⟩

theorem padToComment_subset (column : Int) {code t : Text} (h : code ⊆ ' ' :: t) :
    padToComment column code ⊆ ' ' :: t := by
  unfold padToComment
  split
  · exact List.append_subset.mpr ⟨h, spaces_subset _ _⟩
  · split
    · exact h
    · exact List.append_subset.mpr ⟨h, by simp⟩

theorem fields_subset (stops : TabStops) (column commentColumn : Int) :
    fields stops column commentColumn r ⊆ ' ' :: r.text := by
  unfold fields
  simp only
  split
  · exact codeFields_subset stops column
  · refine List.append_subset.mpr
      ⟨padToComment_subset commentColumn (codeFields_subset stops column), ?_⟩
    exact List.subset_cons_of_subset _
      (List.Subset.trans (subset_trimRight _) (List.drop_subset _ _))

/-- The layout of a line writes spaces and characters of the line. -/
theorem line_subset (conv : Convention) (stops : TabStops) (column commentColumn : Int) :
    line conv stops column commentColumn r ⊆ ' ' :: r.text := by
  have htrim : r.text.trim ⊆ ' ' :: r.text :=
    List.subset_cons_of_subset _ (subset_trim _)
  have hindent : Text.spaces column ++ r.text.trim ⊆ ' ' :: r.text :=
    List.append_subset.mpr ⟨spaces_subset _ _, htrim⟩
  unfold line
  split
  · exact List.nil_subset _
  · unfold commentLine
    split
    · exact hindent
    · exact List.subset_cons_of_subset _ (subset_trimRight _)
  · split
    · exact List.Subset.trans (subset_trimRight _) hindent
    · exact List.Subset.trans (subset_trimRight _) (fields_subset _ _ _)

end subset

end Layout

/-! ## A line under settings -/

namespace Settings

/-- The reading of a line in the comment style of the settings. -/
def read (settings : Settings) (continued : Bool) (line : Text) : Reading :=
  Line.read (.ofStyle settings.style) continued (some line)

/-- The page that lines are laid out on. -/
def page (settings : Settings) : Layout.Page :=
  .whole (.ofStyle settings.style) settings.stops settings.commentColumn

theorem read_eq (settings : Settings) (continued : Bool) (line : Text) :
    settings.read continued line = readText (.ofStyle settings.style) continued line :=
  Line.read_eq_readText (Comment.sharp_ofStyle _) continued line

theorem page_line_eq {settings : Settings} (hvalid : settings.Valid) (continued : Bool)
    (line : Text) :
    settings.page.line (settings.read continued line) =
      let r := readText (.ofStyle settings.style) continued line
      if Layout.isTooWide (.ofStyle settings.style) settings.stops (settings.page.column r)
          settings.commentColumn r then .error .tooWide
      else .ok (Layout.line (.ofStyle settings.style) settings.stops (settings.page.column r)
        settings.commentColumn r) := by
  rw [read_eq]
  exact Layout.line_whole (Comment.sharp_ofStyle _).opening_isSome hvalid.width_pos
    hvalid.column_nonneg (Line.operation_isSome continued line)

theorem page_line_error_iff {settings : Settings} (hvalid : settings.Valid)
    (continued : Bool) (line : Text) (fault : Layout.Fault) :
    settings.page.line (settings.read continued line) = .error fault ↔
      fault = .tooWide ∧
        Layout.isTooWide (.ofStyle settings.style) settings.stops
          (settings.page.column (settings.read continued line)) settings.commentColumn
          (settings.read continued line) = true := by
  rw [page_line_eq hvalid, read_eq]
  simp only
  split
  · next hwide => simp [hwide, eq_comm]
  · next hwide => simp [hwide]

/-- A line is laid out, or one of the columns it can be set in is too far out. -/
theorem page_line_cases {settings : Settings} (hvalid : settings.Valid) (continued : Bool)
    (line : Text) :
    (∃ column, settings.page.line (settings.read continued line) =
      .ok (Layout.line (.ofStyle settings.style) settings.stops column settings.commentColumn
        (readText (.ofStyle settings.style) continued line))) ∨
    (settings.page.line (settings.read continued line) = .error .tooWide ∧
      Layout.Overflows settings.stops settings.commentColumn line.length) := by
  rw [page_line_eq hvalid]
  simp only
  split
  · next hwide =>
    have hover := Layout.overflows_of_isTooWide hwide
    rw [Line.text_readText] at hover
    exact .inr ⟨rfl, hover⟩
  · exact .inl ⟨_, rfl⟩

/-- Whether a line of the text asks for a run of spaces that is too long. -/
def TooWide (settings : Settings) (body : Text) : Prop :=
  ∃ r ∈ Line.readLines (.ofStyle settings.style) false (body.lines.map some),
    Layout.isTooWide (.ofStyle settings.style) settings.stops (settings.page.column r)
      settings.commentColumn r = true

theorem notMem_of_line {settings : Settings} (hvalid : settings.Valid) {continued : Bool}
    {line laid : Text} (h : settings.page.line (settings.read continued line) = .ok laid)
    {c : Char} (hc : c ≠ ' ') (hline : c ∉ line) : c ∉ laid := by
  rcases page_line_cases hvalid continued line with ⟨column, hlaid⟩ | ⟨herror, _⟩
  · rw [hlaid, Except.ok.injEq] at h
    subst h
    intro hmem
    have := Layout.line_subset _ _ _ _ hmem
    rw [Line.text_readText] at this
    simp [hline, hc] at this
  · rw [herror] at h
    cases h

end Settings

/-! ## The lines of a text -/

namespace Session

theorem layoutLines_cons {page : Layout.Page} {r : Reading} {rest : List Reading} :
    layoutLines page (r :: rest) =
      page.line r >>= fun line => (layoutLines page rest).map (line :: ·) := by
  rw [layoutLines]
  cases page.line r with
  | error f => rfl
  | ok line => cases layoutLines page rest <;> rfl

theorem layoutLines_eq_ok_iff {page : Layout.Page} {readings : List Reading}
    {laid : List Text} :
    layoutLines page readings = .ok laid ↔
      List.Forall₂ (fun r line => page.line r = .ok line) readings laid := by
  induction readings generalizing laid with
  | nil => simp [layoutLines, @eq_comm _ []]
  | cons r rest ih =>
      rw [List.forall₂_cons_left_iff]
      simp only [← ih]
      rw [layoutLines_cons]
      cases page.line r with
      | error f => simp [bind, Except.bind]
      | ok line => cases layoutLines page rest <;> simp [bind, Except.bind, Except.map, eq_comm]

theorem exists_of_layoutLines_error {page : Layout.Page} {readings : List Reading}
    {fault : Layout.Fault} (h : layoutLines page readings = .error fault) :
    ∃ r ∈ readings, page.line r = .error fault := by
  induction readings with
  | nil => cases h
  | cons r rest ih =>
      rw [layoutLines_cons] at h
      cases hline : page.line r with
      | error f =>
          rw [hline] at h
          cases h
          exact ⟨r, List.mem_cons_self, hline⟩
      | ok line =>
          cases hrest : layoutLines page rest with
          | error f =>
              rw [hline, hrest] at h
              cases h
              obtain ⟨r', hr', hfault⟩ := ih hrest
              exact ⟨r', List.mem_cons_of_mem _ hr', hfault⟩
          | ok lines =>
              rw [hline, hrest] at h
              cases h

theorem exists_line_of_layoutLines {page : Layout.Page} {readings : List Reading}
    {laid : List Text} (h : layoutLines page readings = .ok laid) {r : Reading}
    (hr : r ∈ readings) : ∃ line, page.line r = .ok line := by
  rw [layoutLines_eq_ok_iff] at h
  induction h with
  | nil => cases hr
  | cons hfirst _ ih =>
      rcases List.mem_cons.mp hr with rfl | hr
      · exact ⟨_, hfirst⟩
      · exact ih hr

theorem exists_of_mem_readLines {settings : Settings} {continued : Bool} {lines : List Text}
    {r : Reading} (h : r ∈ Line.readLines (.ofStyle settings.style) continued (lines.map some)) :
    ∃ line ∈ lines, ∃ continued, r = settings.read continued line := by
  induction lines generalizing continued with
  | nil => cases h
  | cons line rest ih =>
      rcases List.mem_cons.mp h with rfl | h
      · exact ⟨line, List.mem_cons_self, continued, rfl⟩
      · obtain ⟨line', hline', hr⟩ := ih h
        exact ⟨line', List.mem_cons_of_mem _ hline', hr⟩

/-- The lines of a text and their layouts belong together one for one. -/
theorem forall₂_of_layoutLines {settings : Settings} {continued : Bool} {lines laid : List Text}
    (h : layoutLines settings.page
      (Line.readLines (.ofStyle settings.style) continued (lines.map some)) = .ok laid) :
    List.Forall₂ (fun line new => ∃ continued,
      settings.page.line (settings.read continued line) = .ok new) lines laid := by
  rw [layoutLines_eq_ok_iff] at h
  induction lines generalizing continued laid with
  | nil =>
      rw [List.forall₂_nil_left_iff.mp h]
      exact .nil
  | cons line rest ih =>
      rw [List.map_cons, Line.readLines] at h
      obtain ⟨first, later, hfirst, hlater, rfl⟩ := List.forall₂_cons_left_iff.mp h
      exact .cons ⟨continued, hfirst⟩ (ih hlater)

theorem exists_of_mem_layoutLines {settings : Settings} {continued : Bool} {lines laid : List Text}
    (h : layoutLines settings.page
      (Line.readLines (.ofStyle settings.style) continued (lines.map some)) = .ok laid)
    {new : Text} (hnew : new ∈ laid) :
    ∃ line ∈ lines, ∃ continued,
      settings.page.line (settings.read continued line) = .ok new := by
  obtain ⟨hlength, hpairs⟩ := List.forall₂_iff_get.mp (forall₂_of_layoutLines h)
  obtain ⟨⟨i, hi⟩, rfl⟩ := List.get_of_mem hnew
  have hline : i < lines.length := by omega
  exact ⟨lines.get ⟨i, hline⟩, List.get_mem .., hpairs i hline hi⟩

theorem notMem_of_layoutLines {settings : Settings} (hvalid : settings.Valid)
    {continued : Bool} {lines laid : List Text}
    (h : layoutLines settings.page
      (Line.readLines (.ofStyle settings.style) continued (lines.map some)) = .ok laid)
    {c : Char} (hc : c ≠ ' ') (hlines : ∀ line ∈ lines, c ∉ line) : ∀ line ∈ laid, c ∉ line := by
  intro new hnew
  obtain ⟨line, hline, continued, hlays⟩ := exists_of_mem_layoutLines h hnew
  exact Settings.notMem_of_line hvalid hlays hc (hlines line hline)

theorem Coherent.page_eq {s : Session} (h : s.Coherent) : s.page = s.settings.page := by
  rw [page, convention, h.convention_eq]
  rfl

theorem Coherent.read_eq {s : Session} (h : s.Coherent) (line : Text) (continued : Bool) :
    (s.read (some line) continued).1 = s.settings.read continued line := by
  have hread : (s.read (some line) continued).1 = Line.read s.convention continued (some line) :=
    (h.sound.read (some line) continued (some s.convention)).1
  rw [hread, convention, h.convention_eq]
  rfl

theorem Coherent.layout_eq {s : Session} (h : s.Coherent) (text : Text) :
    (s.layout text).1 =
      (layoutLines s.settings.page
        (Line.readLines (.ofStyle s.settings.style) false (text.lines.map some))).map
        Text.unlines := by
  have hreadings := h.readText_eq text
  rw [convention, h.convention_eq] at hreadings
  rw [← hreadings, ← h.page_eq]
  rfl

/-- A text is laid out line by line, or one of its lines does not fit on the page. -/
theorem Coherent.layout_cases {s : Session} (h : s.Coherent) (text : Text) :
    (∃ laid, (s.layout text).1 = .ok (Text.unlines laid) ∧ (Text.unlines laid).lines = laid ∧
      layoutLines s.settings.page
        (Line.readLines (.ofStyle s.settings.style) false (text.lines.map some)) = .ok laid) ∨
    ((s.layout text).1 = .error .tooWide ∧
      ∃ line ∈ text.lines,
        Layout.Overflows s.settings.stops s.settings.commentColumn line.length) := by
  rw [h.layout_eq]
  cases hlaid : layoutLines s.settings.page
      (Line.readLines (.ofStyle s.settings.style) false (text.lines.map some)) with
  | ok laid =>
      have hnewline := notMem_of_layoutLines h.valid hlaid (by decide)
        fun line hline => Text.newline_notMem_of_mem_lines hline
      have hlength := (layoutLines_eq_ok_iff.mp hlaid).length_eq
      rw [Line.length_readLines, List.length_map] at hlength
      have hne : laid ≠ [] := by
        rintro rfl
        exact Text.lines_ne_nil text (List.length_eq_zero_iff.mp hlength)
      exact .inl ⟨laid, rfl, Text.lines_unlines hne hnewline, rfl⟩
  | error fault =>
      obtain ⟨r, hr, hfault⟩ := exists_of_layoutLines_error hlaid
      obtain ⟨line, hline, continued, rfl⟩ := exists_of_mem_readLines hr
      rcases s.settings.page_line_cases h.valid continued line with ⟨column, hok⟩ | ⟨herror, hover⟩
      · rw [hok] at hfault
        cases hfault
      · rw [herror] at hfault
        cases hfault
        exact .inr ⟨rfl, line, hline, hover⟩

/-- A text has no layout if and only if one of its lines asks for a run that is too long. -/
theorem Coherent.layout_error_iff {s : Session} (h : s.Coherent) (body : Text)
    (fault : Layout.Fault) :
    (s.layout body).1 = .error fault ↔ fault = .tooWide ∧ s.settings.TooWide body := by
  rw [h.layout_eq]
  cases hlaid : layoutLines s.settings.page
      (Line.readLines (.ofStyle s.settings.style) false (body.lines.map some)) with
  | ok laid =>
      refine iff_of_false (by simp [Except.map]) ?_
      rintro ⟨-, r, hr, hwide⟩
      obtain ⟨line, hline⟩ := exists_line_of_layoutLines hlaid hr
      obtain ⟨old, -, continued, rfl⟩ := exists_of_mem_readLines hr
      have herror := (Settings.page_line_error_iff h.valid continued old _).mpr ⟨rfl, hwide⟩
      rw [hline] at herror
      cases herror
  | error found =>
      obtain ⟨r, hr, hfault⟩ := exists_of_layoutLines_error hlaid
      obtain ⟨old, -, continued, rfl⟩ := exists_of_mem_readLines hr
      obtain ⟨rfl, hwide⟩ := (Settings.page_line_error_iff h.valid continued old found).mp hfault
      have htooWide : s.settings.TooWide body := ⟨_, hr, hwide⟩
      simp [Except.map, htooWide, eq_comm]

end Session
end AsmColumns
