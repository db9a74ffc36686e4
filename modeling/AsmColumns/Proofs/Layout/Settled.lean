import AsmColumns.Command.Run
import AsmColumns.Proofs.Layout.Recut

/-!
# Laying out a text twice

A text that has been laid out should be its own layout.  Among the lines that keep their comments
there are two exceptions.  A line without a shape that starts at the margin with a word becomes an
operation when it is indented, and the second layout sets that apart from what it touches.  And a
line that starts with a condition may have its first comment in the middle of its code once its
operand stands behind a blank; the second layout indents it as a whole.  Every other line stays as
it was laid out, and as a layout leaves open what the line left open, so does a text.
-/

namespace AsmColumns

open Layout (gainsHead isRigid movesBoundary strandsCondition)
open Line (Reading readText)

namespace Settings

section line

variable {settings : Settings} {continued : Bool} {text laid : Text}

/-- A line with a shape is its own layout once it is laid out, unless that strands a condition. -/
theorem lays_self_iff_of_kind (hvalid : settings.Valid)
    (hkept : movesBoundary (.ofStyle settings.style)
      (readText (.ofStyle settings.style) continued text) = false)
    (hkind : (readText (.ofStyle settings.style) continued text).kind ≠ .unknown)
    (hlays : settings.Lays continued text laid) :
    settings.Lays continued laid laid ↔
      strandsCondition (readText (.ofStyle settings.style) continued laid) = false := by
  obtain ⟨marks, h, hblank | ⟨hcode, hshapeless⟩ | ⟨kind, f, rest, hcode, hfits⟩⟩ :=
    Line.readText_cases (.ofStyle settings.style) continued text
  · rcases (Line.readText_of_allBlank h hblank).2 with hcomment | ⟨hnone, _⟩
    · obtain ⟨hself, hkind'⟩ := lays_self_of_comment hvalid hcomment hlays
      exact iff_of_true hself (strandsCondition_of_kind (by simp [hkind']))
    · obtain ⟨hself, hkind'⟩ := lays_self_of_blank hvalid hnone hlays
      exact iff_of_true hself (strandsCondition_of_kind (by simp [hkind']))
  · exact absurd (unknown_of_shapeless h hcode hshapeless).1 hkind
  · cases hrigid : isRigid (readText (.ofStyle settings.style) continued text) with
    | true =>
        by_cases hcondition : kind = .operation ∧ f.margin ≠ []
        · obtain ⟨rfl, hmargin⟩ := hcondition
          obtain ⟨hself, hstrands⟩ :=
            lays_self_of_condition hvalid h hcode hfits hmargin hrigid hlays
          exact iff_of_true hself hstrands
        · have hplain : f.margin = [] ∨ kind ≠ .operation := by
            by_cases hmargin : f.margin = []
            · exact .inl hmargin
            · exact .inr fun hoperation => hcondition ⟨hoperation, hmargin⟩
          obtain ⟨hself, hstrands⟩ := lays_self_of_rigid hvalid h hcode hfits hrigid hplain hlays
          exact iff_of_true hself hstrands
    | false =>
        obtain ⟨body, tail, tailMarks, hcut⟩ := Line.exists_cut h hcode hfits hrigid
        by_cases hhead : f.head = []
        · obtain ⟨hself, hstrands⟩ := lays_self_of_bare_label hvalid hcut hhead hlays
          exact iff_of_true hself hstrands
        · exact lays_self_iff_of_head hvalid hcut hhead hkept hlays

/-- The layout of a line is its own layout unless the line gains a head or the layout strands a
condition. -/
theorem lays_self_iff (hvalid : settings.Valid)
    (hkept : movesBoundary (.ofStyle settings.style)
      (readText (.ofStyle settings.style) continued text) = false)
    (hlays : settings.Lays continued text laid) :
    settings.Lays continued laid laid ↔
      gainsHead (readText (.ofStyle settings.style) continued text) = false ∧
      strandsCondition (readText (.ofStyle settings.style) continued laid) = false := by
  by_cases hkind : (readText (.ofStyle settings.style) continued text).kind = .unknown
  · obtain ⟨hiff, hstrands⟩ := lays_self_iff_of_unknown hvalid hkind hlays
    simp [hiff, hstrands]
  · have hnone : gainsHead (readText (.ofStyle settings.style) continued text) = false := by
      simp [gainsHead, hkind]
    simp [lays_self_iff_of_kind hvalid hkept hkind hlays, hnone]

/-- The quote that the operand starts with is a prime in the line and opens a quotation in its
layout.  Another comment that reads the same is found there, and it has code behind it. -/
example :
    let settings : Settings := { style := .blockSlashStar }
    settings.page.line (settings.read false "(eq) db'\"'/*a*/\"/*a*/".toList) =
        .ok "(eq)    db '\"'/*a*/\"            /*a*/".toList ∧
      strandsCondition (settings.read false "(eq)    db '\"'/*a*/\"            /*a*/".toList) =
        true :=
  ⟨by rfl, by decide⟩

/-- A layout that has the comments of the line leaves open what the line leaves open. -/
theorem Lays.endsOpen_eq (hvalid : settings.Valid)
    (hkept : movesBoundary (.ofStyle settings.style)
      (readText (.ofStyle settings.style) continued text) = false)
    (hlays : settings.Lays continued text laid) :
    (readText (.ofStyle settings.style) continued laid).endsOpen =
      (readText (.ofStyle settings.style) continued text).endsOpen := by
  obtain ⟨_, hlaid⟩ := (lays_iff hvalid).mp hlays
  have hwidth : 1 ≤ settings.stops.width := hvalid.width_pos
  have hsame := (Layout.boundary_line_iff (Comment.sharp_ofStyle settings.style) hwidth
    continued text (settings.page.column (readText (.ofStyle settings.style) continued text))
    settings.commentColumn).mpr hkept
  rw [hlaid] at hsame
  exact hsame.2

end line

/-! ## The lines of a text -/

section lines

variable {settings : Settings}

/-- The readings of lines in the comment style of the settings. -/
def readLines (settings : Settings) (continued : Bool) (lines : List Text) : List Reading :=
  Line.readLines (.ofStyle settings.style) continued (lines.map some)

theorem readLines_cons (continued : Bool) (line : Text) (rest : List Text) :
    settings.readLines continued (line :: rest) =
      readText (.ofStyle settings.style) continued line ::
        settings.readLines (readText (.ofStyle settings.style) continued line).endsOpen rest := by
  rw [← read_eq]
  rfl

/-- The induction is on the lines.  A line and its layout leave the same flag to the lines behind
them, so that the step is about one line read twice with the same flag. -/
theorem layoutLines_again_iff (hvalid : settings.Valid) {continued : Bool}
    {lines laid : List Text}
    (hkept : ∀ r ∈ settings.readLines continued lines,
      movesBoundary (.ofStyle settings.style) r = false)
    (hlaid : Session.layoutLines settings.page (settings.readLines continued lines) = .ok laid) :
    Session.layoutLines settings.page (settings.readLines continued laid) = .ok laid ↔
      (∀ r ∈ settings.readLines continued lines, gainsHead r = false) ∧
      ∀ r ∈ settings.readLines continued laid, strandsCondition r = false := by
  rw [Session.layoutLines_eq_ok_iff] at hlaid ⊢
  induction lines generalizing continued laid with
  | nil =>
      obtain rfl := List.forall₂_nil_left_iff.mp hlaid
      simp [readLines, Line.readLines]
  | cons line rest ih =>
      rw [readLines_cons] at hlaid hkept ⊢
      obtain ⟨first, later, hfirst, hlater, rfl⟩ := List.forall₂_cons_left_iff.mp hlaid
      rw [List.forall_mem_cons] at hkept
      have hlays : settings.Lays continued line first := by
        rw [Lays, read_eq]
        exact hfirst
      have hself := lays_self_iff hvalid hkept.1 hlays
      rw [Lays, read_eq] at hself
      rw [readLines_cons, hlays.endsOpen_eq hvalid hkept.1, List.forall₂_cons, hself,
        ih hkept.2 hlater, List.forall_mem_cons, List.forall_mem_cons]
      tauto

theorem trimRight_of_mem_layoutLines (hvalid : settings.Valid) {continued : Bool}
    {lines laid : List Text}
    (hlaid : Session.layoutLines settings.page (settings.readLines continued lines) = .ok laid) :
    ∀ line ∈ laid, line.trimRight = line := by
  intro new hnew
  obtain ⟨line, -, continued, hlays⟩ := Session.exists_of_mem_layoutLines hlaid hnew
  exact Lays.trimRight_eq hvalid hlays

end lines

end Settings

/-! ## Texts -/

theorem Command.misalignedFrom_eq_nil_iff {number : Nat} {olds news : List Text}
    (hlength : olds.length = news.length) :
    misalignedFrom number olds news = [] ↔ olds.map Text.trimRight = news := by
  induction olds generalizing number news with
  | nil =>
      obtain rfl := List.eq_nil_of_length_eq_zero hlength.symm
      simp [misalignedFrom]
  | cons old olds ih =>
      cases news with
      | nil => cases hlength
      | cons new news =>
          have hlater : misalignedFrom (number + 1) olds news = [] ↔
              olds.map Text.trimRight = news := ih (Nat.succ.inj hlength)
          by_cases hsame : old.trimRight = new <;> simp [misalignedFrom, hsame, hlater]

namespace Session

variable {s : Session} {text laid : Text}

theorem Coherent.readText_settings (h : s.Coherent) (text : Text) :
    (s.readText text).1 = s.settings.readLines false text.lines := by
  rw [h.readText_eq, convention, h.convention_eq]
  rfl

theorem Coherent.layout_eq_ok_iff (h : s.Coherent) :
    (s.layout text).1 = .ok laid ↔
      layoutLines s.settings.page (s.settings.readLines false text.lines) = .ok laid.lines := by
  constructor
  · intro hlaid
    rcases h.layout_cases text with ⟨lines, hok, hlines, hlay⟩ | ⟨herror, _⟩
    · rw [hlaid, Except.ok.injEq] at hok
      rw [hok, hlines]
      exact hlay
    · rw [hlaid] at herror
      cases herror
  · intro hlines
    rw [Settings.readLines] at hlines
    rw [h.layout_eq, hlines, Except.map, Text.unlines_lines]

theorem misaligned_eq_nil_iff (h : s.Coherent) (hlaid : (s.layout text).1 = .ok laid) :
    ((s.layout laid).1 = .ok laid ↔
      ∃ new, (s.layout laid).1 = .ok new ∧ Command.misaligned laid new = []) := by
  have htrim : laid.lines.map Text.trimRight = laid.lines := by
    rw [h.layout_eq_ok_iff] at hlaid
    refine (List.map_congr_left fun line hline => ?_).trans (List.map_id _)
    exact Settings.trimRight_of_mem_layoutLines h.valid hlaid line hline
  constructor
  · intro hself
    refine ⟨laid, hself, ?_⟩
    rw [Command.misaligned, Command.misalignedFrom_eq_nil_iff rfl, htrim]
  · rintro ⟨new, hnew, hnone⟩
    have hlines := h.layout_eq_ok_iff.mp hnew
    have hlength := (layoutLines_eq_ok_iff.mp hlines).length_eq
    rw [Settings.readLines, Line.length_readLines, List.length_map] at hlength
    rw [Command.misaligned, Command.misalignedFrom_eq_nil_iff hlength, htrim] at hnone
    rw [hnew, ← Text.unlines_lines new, ← hnone, Text.unlines_lines]

/-- In any session on valid settings, let the lines of a text that is laid out keep their comments.
The layout is its own layout exactly if no line gains a head and no condition is stranded, and that
is when comparing it with its own layout finds no line that is out of place. -/
theorem layout_again_iff (hs : s.Reachable) (hlaid : (s.layout text).1 = .ok laid)
    (hkept : ∀ r ∈ (s.readText text).1, movesBoundary s.convention r = false) :
    let again := ((s.layout text).2.layout laid).1
    (again = .ok laid ↔
      (∀ r ∈ (s.readText text).1, gainsHead r = false) ∧
        ∀ r ∈ (s.readText laid).1, strandsCondition r = false) ∧
    (again = .ok laid ↔ ∃ new, again = .ok new ∧ Command.misaligned laid new = []) := by
  intro again
  have h := hs.coherent
  have hagain : again = (s.layout laid).1 := by
    have hnext : (s.layout text).2.Coherent := h.readText text
    exact (hnext.layout_eq laid).trans (h.layout_eq laid).symm
  rw [hagain]
  refine ⟨?_, misaligned_eq_nil_iff h hlaid⟩
  rw [convention, h.convention_eq] at hkept
  simp only [h.readText_settings] at hkept ⊢
  rw [h.layout_eq_ok_iff] at hlaid ⊢
  exact Settings.layoutLines_again_iff h.valid hkept hlaid

/-- The second line starts with a word that a comma touches.  It is indented first, and taken apart
when the text is laid out again. -/
theorem layout_again_touching_word :
    let s := ofSettings {}
    let text := "a: mov b ;c\nfoo,bar".toList
    let laid := "a:      mov b                   ;c\n        foo,bar".toList
    s.Reachable ∧ (s.layout text).1 = .ok laid ∧
      (∀ r ∈ (s.readText text).1, movesBoundary s.convention r = false) ∧
      ((s.layout text).2.layout laid).1 ≠ .ok laid := by
  have hlines : layoutLines ({} : Settings).page
      (({} : Settings).readLines false (Text.lines "a: mov b ;c\nfoo,bar".toList)) =
      .ok (Text.lines "a:      mov b                   ;c\n        foo,bar".toList) := by rfl
  intro s text laid
  have hs : s.Reachable := reachable_ofSettings Settings.valid_default
  have hlaid : (s.layout text).1 = .ok laid := hs.coherent.layout_eq_ok_iff.mpr hlines
  have hkept : ∀ r ∈ (s.readText text).1, movesBoundary s.convention r = false := by
    rw [hs.coherent.readText_settings]
    decide
  have hgains : ¬ ∀ r ∈ (s.readText text).1, gainsHead r = false := by
    rw [hs.coherent.readText_settings]
    decide
  exact ⟨hs, hlaid, hkept, fun hagain =>
    hgains ((layout_again_iff hs hlaid hkept).1.mp hagain).1⟩

end Session

end AsmColumns
