import AsmColumns.Proofs.Layout.Fields
import AsmColumns.Proofs.Layout.Lines

/-!
# What the layout keeps of a line

The layout of a line writes spaces and characters of the line, and it keeps the ink of every line
but those that hide code: a label at the margin, behind it spaces and tabs that lead to a blank of
another kind, and code behind that.  The rule for labels looks for their token behind spaces and
tabs only, so no part of the reading holds that code, and the layout drops it.
-/

namespace AsmColumns
namespace Layout

open Comment (Convention blanked scan)
open Line (Front Fits Kind Reading IsCut Marked readText unsorted)
open Text (isBlank isPad allBlank ink)

/-- Whether code stands behind a label and a blank that is no space and no tab. -/
def hidesCode (r : Reading) : Bool :=
  match r.label with
  | none => false
  | some label =>
      let behind := r.text.slice label.stop (r.commentStart?.getD r.text.length)
      (behind.dropWhile isPad).head?.any isBlank && !allBlank behind

/-! ## The ink of a line -/

section ink

variable {conv : Convention} {continued : Bool} {text body tail rest : Text} {kind : Kind}
  {f : Front} {marks tailMarks : List Bool}

theorem ink_padToComment (column : Int) (code : Text) :
    ink (padToComment column code) = ink code := by
  unfold padToComment
  split
  · exact Text.ink_padRight column code
  · split <;> simp

theorem ink_setCode (hfits : Fits kind f rest) (column : Int) (body : Text) :
    ink (setCode f column body) =
      ink f.text ++ if f.head = [] then [] else ink body := by
  rw [ink_front hfits]
  unfold setCode
  by_cases hhead : f.head = []
  · simp [hhead]
  · cases hbody : allBlank body <;> simp [hhead, hbody]

theorem ink_line_of_cut (hsharp : conv.Sharp)
    (h : IsCut conv continued text kind f body tail tailMarks) (stops : TabStops)
    (column commentColumn : Int) :
    ink (line conv stops column commentColumn (readText conv continued text)) =
      ink f.text ++ ((if f.head = [] then [] else ink body) ++ ink tail) := by
  rw [line_eq h hsharp]
  by_cases htail : tail = []
  · simp [htail, ink_setCode h.fits]
  · simp [htail, ink_padToComment, ink_setCode h.fits]

/-- A label without a head is set in columns: no comment starts inside it. -/
theorem not_isRigid_of_head (h : Marked conv continued text marks)
    (hcode : blanked marks text = f.text ++ rest) (hfits : Fits kind f rest)
    (hhead : f.head = []) : isRigid (readText conv continued text) = false := by
  obtain ⟨rfl, hlead, hgap⟩ := hfits.kind_of_head hhead
  rw [Line.readText_of_fits h hcode hfits, Line.isRigid_reading hfits, Bool.eq_false_iff]
  intro hany
  obtain ⟨comment, hcomment, hlt⟩ := (Option.any_eq_true _ _).mp hany
  obtain ⟨front, tail, tailMarks, rfl, rfl, hopens⟩ := Line.exists_split h.scans.length_marks
  have hstart := h.head?_start hopens
  rw [show (scan conv continued (front ++ tail)).spans.head? = some comment from hcomment]
    at hstart
  by_cases htail : tail = []
  · simp [htail] at hstart
  · rw [if_neg htail, Option.map_some, Option.some.injEq] at hstart
    have hmargin : f.text = f.margin := by simp [Front.text, hlead, hgap, hhead]
    rw [decide_eq_true_eq, Front.stop, if_pos hhead, hstart, hmargin] at hlt
    rw [Line.blanked_front, hmargin] at hcode
    obtain ⟨marks, rfl⟩ := List.head?_eq_some_iff.mp (hopens.resolve_left htail)
    obtain ⟨c, tail, rfl⟩ := List.exists_cons_of_ne_nil htail
    -- The first comment would blank a character of the label.
    have hmem : ' ' ∈ f.margin := by
      rcases List.append_eq_append_iff.mp hcode with ⟨more, hmore, hblank⟩ | ⟨more, hmore, _⟩
      · cases more with
        | nil => simp [hmore] at hlt
        | cons d more =>
            rw [blanked, List.cons_append, List.cons.injEq] at hblank
            simp [hmore, ← hblank.1]
      · simp only [hmore, List.length_append] at hlt
        omega
    have := isBlank_of_mem_margin hfits hmem
    simp at this

theorem hidesCode_label {front : Text}
    (h : Marked conv continued (front ++ tail)
      (List.replicate front.length false ++ tailMarks))
    (hopens : tail = [] ∨ tailMarks.head? = some true)
    (hcode : blanked (List.replicate front.length false ++ tailMarks) (front ++ tail) =
      f.text ++ rest)
    (hfits : Fits .label f rest) :
    hidesCode (readText conv continued (front ++ tail)) =
      let behind := front.drop f.margin.length
      (behind.dropWhile isPad).head?.any isBlank && !allBlank behind := by
  have hend : (readText conv continued (front ++ tail)).commentStart?.getD
      (front ++ tail).length = front.length := by
    rw [h.commentStart? hopens]
    by_cases htail : tail = [] <;> simp [htail]
  have hslice : Text.slice (Span.stop ⟨0, f.margin.length⟩) front.length (front ++ tail) =
      front.drop f.margin.length := by
    rw [Text.slice, Span.stop, Nat.zero_add, ← List.drop_take, List.take_left]
  have hlabel : (readText conv continued (front ++ tail)).label = some ⟨0, f.margin.length⟩ := by
    rw [Line.readText_of_fits h hcode hfits]
    rfl
  simp only [hidesCode, hlabel, Line.text_readText, hend, hslice]

/-- Spaces and tabs lead to a token, in as much of a line as there is before its comment. -/
theorem any_isBlank_dropWhile_isPad {behind gap head : Text}
    (hgap : ∀ c ∈ gap, isPad c = true) (hne : head ≠ [])
    (hhead : ∀ c ∈ head, isBlank c = false) (hbehind : behind <+: gap ++ (head ++ rest)) :
    (behind.dropWhile isPad).head?.any isBlank = false := by
  obtain ⟨more, hmore⟩ := hbehind
  rcases List.append_eq_append_iff.mp hmore with ⟨pads, rfl, _⟩ | ⟨start, rfl, hstart⟩
  · have hnil : behind.dropWhile isPad = [] :=
      List.dropWhile_eq_nil_iff.mpr fun c hc => hgap c (List.mem_append_left _ hc)
    simp [hnil]
  · rw [List.dropWhile_append_of_pos hgap]
    cases start with
    | nil => rfl
    | cons c start =>
        obtain ⟨d, head, rfl⟩ := List.exists_cons_of_ne_nil hne
        obtain ⟨rfl, _⟩ := List.cons.inj hstart
        have hc := hhead d List.mem_cons_self
        have hpad : isPad d = false := by
          rw [Bool.eq_false_iff]
          intro hpad
          rw [Text.isBlank_of_isPad hpad] at hc
          cases hc
        simp [hpad, hc]

theorem hidesCode_of_head (h : Marked conv continued text marks)
    (hcode : blanked marks text = f.text ++ rest) (hfits : Fits kind f rest)
    (hhead : f.head ≠ []) : hidesCode (readText conv continued text) = false := by
  by_cases hkind : kind = .label
  · subst hkind
    obtain ⟨front, tail, tailMarks, rfl, rfl, hopens⟩ := Line.exists_split h.scans.length_marks
    obtain ⟨hlead, _⟩ := margin_ne_nil_of_label hfits
    have hbehind : front.drop f.margin.length <+: f.gap ++ (f.head ++ rest) := by
      have hdrop := congrArg (List.drop f.margin.length) hcode
      rw [Line.blanked_front, List.drop_append] at hdrop
      refine ⟨_, hdrop.trans ?_⟩
      simp [Front.text, hlead]
    have hgap : ∀ c ∈ f.gap, isPad c = true := by
      cases hfits with
      | label => exact absurd rfl hhead
      | labelled _ hgap => exact hgap
    rw [hidesCode_label h hopens hcode hfits]
    simp only [any_isBlank_dropWhile_isPad hgap hhead hfits.head_ink hbehind,
      Bool.false_and]
  · rw [Line.readText_of_fits h hcode hfits]
    simp [hidesCode, Front.reading, hkind]

theorem hidesCode_of_cut (h : IsCut conv continued text kind f body tail tailMarks)
    (hhead : f.head = []) : hidesCode (readText conv continued text) = !allBlank body := by
  have hfits := h.fits
  obtain ⟨rfl, hlead, hgap⟩ := hfits.kind_of_head hhead
  have hmarked := h.marked
  have hcode := h.code_eq
  have hdrop : (f.text ++ body).drop f.margin.length = body := by
    simp [Front.text, hlead, hgap, hhead]
  rw [h.text_eq] at hmarked hcode ⊢
  rw [hidesCode_label hmarked h.opens hcode hfits, hdrop]
  cases hbody : allBlank body with
  | true => simp [hbody]
  | false =>
      have htoken :
          ((body ++ blanked tailMarks tail).dropWhile isPad).head?.all isBlank = true := by
        cases hfits with
        | label _ htoken => exact htoken
        | labelled _ _ hne => exact absurd hhead hne
      cases hpads : body.dropWhile isPad with
      | nil =>
          have hall := List.dropWhile_eq_nil_iff.mp hpads
          have : allBlank body = true :=
            Text.allBlank_iff.mpr fun c hc => Text.isBlank_of_isPad (hall c hc)
          simp [hbody] at this
      | cons c more =>
          rw [List.dropWhile_append, hpads] at htoken
          simpa [hpads, hbody] using htoken

theorem ink_commentLine (column : Int) (text : Text) :
    ink (commentLine conv column text) = ink text := by
  unfold commentLine
  split <;> simp

theorem ink_line_iff (hsharp : conv.Sharp) (stops : TabStops) (column commentColumn : Int) :
    ink (line conv stops column commentColumn (readText conv continued text)) = ink text ↔
      hidesCode (readText conv continued text) = false := by
  obtain ⟨marks, h, hblank | ⟨hink, hshapeless⟩ | ⟨kind, f, rest, hcode, hfits⟩⟩ :=
    Line.readText_cases conv continued text
  · obtain ⟨hbare, hkind | ⟨hkind, hblank⟩⟩ := Line.readText_of_allBlank h hblank
    · refine iff_of_true ?_ (by simp [hidesCode, hbare.label])
      simp [line, hkind, ink_commentLine]
    · refine iff_of_true ?_ (by simp [hidesCode, hbare.label])
      simp [line, hkind, hblank]
  · have hread := Line.readText_of_shapeless h hink hshapeless
    refine iff_of_true ?_ (by simp [hidesCode, hread, unsorted])
    have hrigid : isRigid (readText conv continued text) = true := by
      simp [isRigid, hread]
    rw [line_of_isRigid (by simp [hread]) (by simp [hread]) hrigid]
    simp
  · have hread := Line.readText_of_fits h hcode hfits
    have hkind : (readText conv continued text).kind = kind := by
      rw [hread]
      rfl
    cases hrigid : isRigid (readText conv continued text) with
    | true =>
        have hhead : f.head ≠ [] := by
          intro hhead
          simp [not_isRigid_of_head h hcode hfits hhead] at hrigid
        refine iff_of_true ?_ (hidesCode_of_head h hcode hfits hhead)
        rw [line_of_isRigid _ _ hrigid]
        · simp
        · rcases hfits.kind_eq with rfl | rfl | rfl <;> simp [hkind]
        · rcases hfits.kind_eq with rfl | rfl | rfl <;> simp [hkind]
    | false =>
        obtain ⟨body, tail, tailMarks, hcut⟩ := Line.exists_cut h hcode hfits hrigid
        have htext : ink text = ink f.text ++ (ink body ++ ink tail) := by
          conv_lhs => rw [hcut.text_eq]
          simp
        rw [ink_line_of_cut hsharp hcut, htext]
        by_cases hhead : f.head = []
        · rw [hidesCode_of_cut hcut hhead]
          simp [hhead, Text.ink_eq_nil_iff]
        · simp [hhead, hidesCode_of_head h hcode hfits hhead]

/-- A line that hides code is a label and nothing else, to its reading. -/
theorem exists_cut_of_hidesCode (h : hidesCode (readText conv continued text) = true) :
    ∃ kind f body tail tailMarks, IsCut conv continued text kind f body tail tailMarks ∧
      f.head = [] := by
  obtain ⟨marks, hmarked, hblank | ⟨hink, hshapeless⟩ | ⟨kind, f, rest, hcode, hfits⟩⟩ :=
    Line.readText_cases conv continued text
  · have hbare := (Line.readText_of_allBlank hmarked hblank).1
    simp [hidesCode, hbare.label] at h
  · simp [hidesCode, Line.readText_of_shapeless hmarked hink hshapeless, unsorted] at h
  · by_cases hhead : f.head = []
    · have hrigid := not_isRigid_of_head hmarked hcode hfits hhead
      obtain ⟨body, tail, tailMarks, hcut⟩ := Line.exists_cut hmarked hcode hfits hrigid
      exact ⟨kind, f, body, tail, tailMarks, hcut, hhead⟩
    · rw [hidesCode_of_head hmarked hcode hfits hhead] at h
      cases h

/-- A layout never has more ink than its line. -/
theorem length_ink_line_le (hsharp : conv.Sharp) (stops : TabStops) (column commentColumn : Int) :
    (ink (line conv stops column commentColumn (readText conv continued text))).length ≤
      (ink text).length := by
  cases hhides : hidesCode (readText conv continued text) with
  | false => rw [(ink_line_iff hsharp stops column commentColumn).mpr hhides]
  | true =>
      obtain ⟨kind, f, body, tail, tailMarks, hcut, hhead⟩ := exists_cut_of_hidesCode hhides
      have htext : ink text = ink f.text ++ (ink body ++ ink tail) := by
        conv_lhs => rw [hcut.text_eq]
        simp
      rw [ink_line_of_cut hsharp hcut, htext, if_pos hhead]
      simp only [List.length_append, List.length_nil]
      omega

end ink

/-! ## The ink of a text -/

theorem ink_page_line_iff {settings : Settings} (hvalid : settings.Valid) {continued : Bool}
    {old new : Text} (h : settings.page.line (settings.read continued old) = .ok new) :
    ink new = ink old ↔ hidesCode (settings.read continued old) = false := by
  rcases settings.page_line_cases hvalid continued old with ⟨column, hnew⟩ | ⟨herror, _⟩
  · rw [hnew, Except.ok.injEq] at h
    rw [← h, Settings.read_eq]
    exact ink_line_iff (Comment.sharp_ofStyle _) _ _ _
  · rw [herror] at h
    cases h

theorem length_ink_page_line_le {settings : Settings} (hvalid : settings.Valid) {continued : Bool}
    {old new : Text} (h : settings.page.line (settings.read continued old) = .ok new) :
    (ink new).length ≤ (ink old).length := by
  rcases settings.page_line_cases hvalid continued old with ⟨column, hnew⟩ | ⟨herror, _⟩
  · rw [hnew, Except.ok.injEq] at h
    rw [← h]
    exact length_ink_line_le (Comment.sharp_ofStyle _) _ _ _
  · rw [herror] at h
    cases h

theorem forall₂_ink_iff {settings : Settings} (hvalid : settings.Valid) {continued : Bool}
    {old new : List Text}
    (h : Session.layoutLines settings.page
      (Line.readLines (.ofStyle settings.style) continued (old.map some)) = .ok new) :
    List.Forall₂ (fun before after => ink after = ink before) old new ↔
      ∀ r ∈ Line.readLines (.ofStyle settings.style) continued (old.map some),
        hidesCode r = false := by
  rw [Session.layoutLines_eq_ok_iff] at h
  induction old generalizing continued new with
  | nil => simpa [Line.readLines] using h
  | cons line rest ih =>
      rw [List.map_cons, Line.readLines] at h ⊢
      obtain ⟨first, later, hfirst, hlater, rfl⟩ := List.forall₂_cons_left_iff.mp h
      rw [List.forall₂_cons, List.forall_mem_cons]
      exact and_congr (ink_page_line_iff hvalid hfirst) (ih hlater)

/-- Under valid settings in any comment style, the layout of a line keeps its ink if and only if
the line does not hide code, and the layout of a text keeps the ink of each line if and only if no
line of the text hides code.  There is no layout only if a column is too far out. -/
theorem ink_layout_iff (old : Text) :
    (∀ settings : Settings, settings.Valid → ∀ continued : Bool,
      match settings.page.line (settings.read continued old) with
      | .ok new => (ink new = ink old ↔ hidesCode (settings.read continued old) = false)
      | .error fault => fault = .tooWide ∧
          Overflows settings.stops settings.commentColumn old.length) ∧
    (∀ s : Session, s.Reachable →
      match (s.layout old).1 with
      | .ok new =>
          (List.Forall₂ (fun before after => ink after = ink before) old.lines new.lines ↔
            ∀ r ∈ (s.readText old).1, hidesCode r = false)
      | .error fault => fault = .tooWide ∧
          ∃ line ∈ old.lines,
            Overflows s.settings.stops s.settings.commentColumn line.length) := by
  refine ⟨?_, ?_⟩
  · intro settings hvalid continued
    cases hnew : settings.page.line (settings.read continued old) with
    | ok new => exact ink_page_line_iff hvalid hnew
    | error fault =>
        rcases settings.page_line_cases hvalid continued old with ⟨_, hok⟩ | ⟨herror, hover⟩
        · simp [hok] at hnew
        · rw [herror] at hnew
          cases hnew
          exact ⟨rfl, hover⟩
  · intro s hs
    have hreadings := hs.coherent.readText_eq old
    rw [Session.convention, hs.coherent.convention_eq] at hreadings
    rcases hs.coherent.layout_cases old with ⟨new, hnew, hlines, hlaid⟩ | ⟨herror, hover⟩
    · simp only [hnew, hlines, hreadings]
      exact forall₂_ink_iff hs.coherent.valid hlaid
    · simp only [herror]
      exact ⟨trivial, hover⟩

/-- An operation behind a label and a vertical tab is lost, in a line and in a text. -/
theorem ink_layout_vertical_tab :
    ({} : Settings).Valid ∧ (Session.ofSettings {}).Reachable ∧
      (({} : Settings).page.line (({} : Settings).read false "a:\x0bmov".toList) =
          .ok "a:".toList ∧
        ¬ ink "a:".toList = ink "a:\x0bmov".toList) ∧
      (((Session.ofSettings {}).layout " nop\na:\x0bmov".toList).1 =
          .ok "        nop\na:".toList ∧
        ¬ List.Forall₂ (fun before after => ink after = ink before)
          (Text.lines " nop\na:\x0bmov".toList) (Text.lines "        nop\na:".toList)) := by
  have hreach : (Session.ofSettings {}).Reachable :=
    Session.reachable_ofSettings Settings.valid_default
  have hline : ({} : Settings).page.line (({} : Settings).read false "a:\x0bmov".toList) =
      .ok "a:".toList := by rfl
  have htext : ((Session.ofSettings {}).layout " nop\na:\x0bmov".toList).1 =
      .ok "        nop\na:".toList := (hreach.coherent.layout_eq _).trans (by rfl)
  have hiff := (ink_layout_iff "a:\x0bmov".toList).1 {} Settings.valid_default false
  have hiffs := (ink_layout_iff " nop\na:\x0bmov".toList).2 _ hreach
  simp only [hline] at hiff
  simp only [htext, hreach.coherent.readText_eq] at hiffs
  exact ⟨Settings.valid_default, hreach, ⟨hline, fun hink => absurd (hiff.mp hink) (by decide)⟩,
    htext, fun hink => absurd (hiffs.mp hink) (by decide)⟩

end Layout
end AsmColumns
