import AsmColumns.Proofs.Layout.Settled
import AsmColumns.Proofs.Line.Pass

/-!
# Blanks without a meaning

Blanks at the end of a line never count.  At its start it counts only whether there are any, unless
the line is entered inside a comment, whose lines keep their shape.  Two lines that differ in such
blanks alone have the same text between other blanks: the scan finds the same comments in it, the
code between them has the same shape, and what is cut off in front of the first comment is set in
the same columns.  They also leave open the same comments, so that two texts may differ like that in
every line and still have one layout.
-/

namespace AsmColumns

open Comment (Convention blanked)
open Layout (isRigid setCode commentLine)
open Text (isBlank isPad allBlank)

namespace Line

/-- A run of spaces and tabs. -/
structure IsIndent (lead : Text) : Prop where
  ne_nil : lead ≠ []
  all_isPad : ∀ c ∈ lead, isPad c = true

theorem IsIndent.allBlank {lead : Text} (h : IsIndent lead) : allBlank lead = true :=
  Text.allBlank_iff.mpr fun c hc => Text.isBlank_of_isPad (h.all_isPad c hc)

/-- Two lines that differ only in the blanks at their ends and, unless they are entered inside a
comment, in one indentation that stands for another. -/
inductive Alike (inside : Bool) : Text → Text → Prop where
  | trail {t z z' : Text} :
      allBlank z = true → allBlank z' = true → Alike inside (t ++ z) (t ++ z')
  | indent {lead lead' t z z' : Text} :
      inside = false → IsIndent lead → IsIndent lead' → allBlank z = true → allBlank z' = true →
      Alike inside (lead ++ (t ++ z)) (lead' ++ (t ++ z'))

/-- A line with the given text between blanks. -/
structure Framed (text lead t z : Text) : Prop where
  text_eq : text = lead ++ (t ++ z)
  lead_blank : allBlank lead = true
  trail_blank : allBlank z = true

section framed

variable {conv : Convention} {continued : Bool} {text lead t z : Text}

theorem Framed.trim_eq (h : Framed text lead t z) : text.trim = t.trim := by
  rw [h.text_eq, Text.trim_lead h.lead_blank, Text.trim_append_of_allBlank h.trail_blank]

theorem Framed.allBlank_eq (h : Framed text lead t z) : allBlank text = allBlank t := by
  rw [h.text_eq, Text.allBlank_append, Text.allBlank_append, h.lead_blank, h.trail_blank,
    Bool.true_and, Bool.and_true]

theorem Framed.trimRight_eq (h : Framed text lead t z) :
    text.trimRight = Text.trimRight (lead ++ t) := by
  rw [h.text_eq, ← List.append_assoc, Text.trimRight_append, if_pos h.trail_blank]

theorem Framed.endsOpen_eq (hsharp : conv.Sharp) (h : Framed text lead t z) :
    (readText conv continued text).endsOpen = (readText conv continued t).endsOpen := by
  obtain ⟨marks, hmarked⟩ := exists_marked conv continued t
  obtain ⟨mark, htrail⟩ := hmarked.scans.trail hsharp h.trail_blank
  rw [endsOpen_readText, endsOpen_readText, h.text_eq]
  exact (marked_of_scans (htrail.lead_entry hsharp h.lead_blank)).2

/-- Lines that are alike have the same text between blanks, and start with it both or neither. -/
theorem Alike.exists_framed {inside : Bool} {text' : Text} (h : Alike inside text text') :
    ∃ lead lead' t z z', Framed text lead t z ∧ Framed text' lead' t z' ∧
      (lead = [] ↔ lead' = []) ∧ (lead = lead' ∨ inside = false) := by
  cases h with
  | @trail t z z' hz hz' =>
      exact ⟨[], [], t, z, z', ⟨rfl, rfl, hz⟩, ⟨rfl, rfl, hz'⟩, Iff.rfl, .inl rfl⟩
  | @indent lead lead' t z z' hinside hlead hlead' hz hz' =>
      exact ⟨lead, lead', t, z, z', ⟨rfl, hlead.allBlank, hz⟩, ⟨rfl, hlead'.allBlank, hz'⟩,
        iff_of_false hlead.ne_nil hlead'.ne_nil, .inr hinside⟩

/-- Two lines with the same text between blanks, as frames of the same code. -/
theorem Framed.exists_frames {text' lead' z' : Text} (hsharp : conv.Sharp) (continued : Bool)
    (h : Framed text lead t z) (h' : Framed text' lead' t z') (hstart : lead = [] ↔ lead' = [])
    (hink : allBlank t = false) :
    ∃ core marks marks' front front' back back',
      IsFrame conv continued text marks front core back ∧
      IsFrame conv continued text' marks' front' core back' ∧
      front.length = lead.length ∧ front'.length = lead'.length ∧ (front = [] ↔ front' = []) ∧
      allBlank (readText conv continued text').behindComment =
        allBlank (readText conv continued text).behindComment := by
  have hne : t ≠ [] := by
    rintro rfl
    cases hink
  obtain ⟨marks, hmarked⟩ := exists_marked conv continued t
  obtain ⟨_, _, _, hframe, hlength, hbehind⟩ :=
    exists_frame hsharp h.lead_blank h.trail_blank hne hmarked
  obtain ⟨_, _, _, hframe', hlength', hbehind'⟩ :=
    exists_frame hsharp h'.lead_blank h'.trail_blank hne hmarked
  rw [← h.text_eq] at hframe hbehind
  rw [← h'.text_eq] at hframe' hbehind'
  refine ⟨_, _, _, _, _, _, _, hframe, hframe', hlength, hlength', ?_, hbehind'.trans hbehind.symm⟩
  rwa [← List.length_eq_zero_iff, ← List.length_eq_zero_iff, hlength, hlength',
    List.length_eq_zero_iff, List.length_eq_zero_iff]

end framed

/-! ## Shapes -/

section shapes

variable {conv : Convention} {continued : Bool} {kind : Kind} {f : Front}
  {front front' core rest back back' : Text}

theorem head?_dropWhile_trail (rest back : Text) (hback' : allBlank back' = true)
    (h : ((rest ++ back).dropWhile isPad).head?.all isBlank = true) :
    ((rest ++ back').dropWhile isPad).head?.all isBlank = true := by
  rw [List.dropWhile_append] at h ⊢
  cases hrest : rest.dropWhile isPad with
  | cons c more =>
      rw [hrest] at h
      exact h
  | nil =>
      have hdrop : allBlank (back'.dropWhile isPad) = true :=
        Text.allBlank_iff.mpr fun c hc =>
          Text.allBlank_iff.mp hback' c ((List.dropWhile_sublist _).subset hc)
      cases hback : back'.dropWhile isPad with
      | nil => simp
      | cons c more =>
          rw [hback] at hdrop
          have hc := Text.allBlank_iff.mp hdrop c List.mem_cons_self
          simpa [hback] using hc

/-- A front fits as well with other blanks at the end of the line. -/
theorem Fits.trail (h : Fits kind f (rest ++ back)) (hback' : allBlank back' = true) :
    Fits kind f (rest ++ back') := by
  by_cases hhead : f.head = []
  · cases h with
    | directive => cases hhead
    | labelled _ _ hne => exact absurd hhead hne
    | operation _ _ hword => exact absurd hhead hword.ne_nil
    | conditional _ _ _ hword => exact absurd hhead hword.ne_nil
    | label hlabel hblank =>
        refine .label ⟨hlabel.ends.reset fun hbefore => ?_, hlabel.not_directive⟩
          (head?_dropWhile_trail rest back hback' hblank)
        rcases head?_trail rest back hback' with hnew | hsame
        · exact hnew
        · rwa [hsame]
  · exact h.reset hhead (Layout.allBlank_lead h) (fun _ => Iff.rfl) (.inl rfl)
      (head?_trail rest back hback')

/-- A shape in one frame is a shape in another one, if both start at the margin or neither does. -/
theorem IsFrame.reset {text text' : Text} {marks marks' : List Bool}
    (h : IsFrame conv continued text marks front core back)
    (h' : IsFrame conv continued text' marks' front' core back')
    (hstart : front = [] ↔ front' = [])
    (hcode : blanked marks text = f.text ++ rest) (hfits : Fits kind f rest) :
    ∃ lead rest', f.lead = front ++ lead ∧
      blanked marks' text' = Front.text ⟨front' ++ lead, f.margin, f.gap, f.head⟩ ++ rest' ∧
      Fits kind ⟨front' ++ lead, f.margin, f.gap, f.head⟩ rest' := by
  by_cases hhead : f.head = []
  · obtain ⟨label, rfl, rfl, _⟩ := hfits.exists_label hhead
    obtain ⟨lead, rest', hlead, rfl, hcore⟩ :=
      hfits.exists_core h.front_blank h.back_blank (hcode.symm.trans h.code_eq)
    obtain ⟨hfront, rfl⟩ := List.append_eq_nil_iff.mp hlead.symm
    have hfront' := hstart.mp hfront
    refine ⟨[], rest' ++ back', hlead, ?_, ?_⟩
    · rw [h'.code_eq, hcore, hfront']
      simp [Front.text]
    · rw [hfront']
      exact hfits.trail h'.back_blank
  · obtain ⟨lead, rest', hlead, hcode', hreset⟩ := h.exists_fits h' hcode hfits hhead
    refine ⟨lead, rest', hlead, hcode', hreset fun _ => ?_⟩
    rw [hlead, List.append_eq_nil_iff, List.append_eq_nil_iff, hstart]

/-- Code without a shape has none in the other frame. -/
theorem IsFrame.shapeless {text text' : Text} {marks marks' : List Bool}
    (h : IsFrame conv continued text marks front core back)
    (h' : IsFrame conv continued text' marks' front' core back')
    (hstart : front = [] ↔ front' = []) (hshapeless : Shapeless (blanked marks text)) :
    Shapeless (blanked marks' text') := by
  rcases Line.exists_fits (blanked marks' text') with ⟨kind, f, rest, hcode, hfits⟩ | hshapeless'
  · obtain ⟨lead, rest', _, hcode', hfits'⟩ := h'.reset h hstart.symm hcode hfits
    rw [hcode'] at hshapeless
    exact absurd hshapeless hfits'.not_shapeless
  · exact hshapeless'

end shapes

/-! ## Cuts -/

section cuts

variable {conv : Convention} {continued : Bool} {kind : Kind} {f : Front}
  {text lead z u v body tail : Text} {tailMarks vMarks : List Bool}

/-- No piece without marks stands at the start of a tail. -/
theorem gap_eq_nil {front tail tail' gap : Text} {marks marks' : List Bool}
    (htail : tail = gap ++ tail')
    (hmarks : List.replicate front.length false ++ marks =
      List.replicate (front ++ gap).length false ++ marks')
    (hopens : tail = [] ∨ marks.head? = some true) : gap = [] := by
  rw [List.length_append, ← List.replicate_append_replicate, List.append_assoc,
    List.append_cancel_left_eq] at hmarks
  cases gap with
  | nil => rfl
  | cons c gap =>
      rw [htail, hmarks] at hopens
      simp [List.replicate_succ] at hopens

/-- A text is cut at its first mark in one way. -/
theorem split_unique {front tail front' tail' : Text} {marks marks' : List Bool}
    (htext : front ++ tail = front' ++ tail')
    (hmarks : List.replicate front.length false ++ marks =
      List.replicate front'.length false ++ marks')
    (hopens : tail = [] ∨ marks.head? = some true)
    (hopens' : tail' = [] ∨ marks'.head? = some true) : front = front' ∧ tail = tail' := by
  rcases List.append_eq_append_iff.mp htext with ⟨gap, rfl, htail⟩ | ⟨gap, rfl, htail⟩
  · obtain rfl := gap_eq_nil htail hmarks hopens
    exact ⟨(List.append_nil _).symm, htail⟩
  · obtain rfl := gap_eq_nil htail hmarks.symm hopens'
    exact ⟨List.append_nil _, htail.symm⟩

/-- A framed line is cut where the text in it is; the blanks at its end go to the last piece. -/
theorem IsCut.exists_of_framed (hsharp : conv.Sharp)
    (hcut : IsCut conv continued text kind f body tail tailMarks)
    (h : Framed text lead (u ++ v) z)
    (hmarked : Marked conv continued (u ++ v) (List.replicate u.length false ++ vMarks))
    (hopens : v = [] ∨ vMarks.head? = some true) :
    ∃ z₁ z₂, allBlank z₁ = true ∧ allBlank z₂ = true ∧ f.text ++ body = lead ++ (u ++ z₁) ∧
      tail = v ++ z₂ := by
  obtain ⟨mark, htrail⟩ := hmarked.scans.trail hsharp h.trail_blank
  have hbefore : (none : Option Char).all isBlank = true := rfl
  rw [hcut.entry_eq] at htrail
  have hscans := htrail.lead_code hsharp rfl hbefore h.lead_blank
  have hcutScans := hcut.marked.scans
  rw [hcut.entry_eq, h.text_eq] at hcutScans
  have hmarks : List.replicate (f.text ++ body).length false ++ tailMarks =
      List.replicate (lead ++ u).length false ++ (vMarks ++ List.replicate z.length mark) := by
    rw [(hcutScans.unique hscans).1, List.length_append, ← List.replicate_append_replicate,
      List.append_assoc, List.append_assoc]
  have htext : (f.text ++ body) ++ tail = (lead ++ u) ++ (v ++ z) := by
    rw [← hcut.text_eq, h.text_eq, List.append_assoc, List.append_assoc]
  by_cases hquiet : v = [] ∧ mark = false
  · -- There is no comment in the text, and none in the blanks behind it.
    obtain ⟨rfl, rfl⟩ := hquiet
    obtain rfl : vMarks = [] := List.eq_nil_of_length_eq_zero hmarked.length_tailMarks
    have hmarks' : List.replicate (f.text ++ body).length false ++ tailMarks =
        List.replicate ((lead ++ u) ++ z).length false ++ [] := by
      rw [hmarks]
      simp [Nat.add_assoc]
    obtain ⟨hfront, rfl⟩ := split_unique (htext.trans (List.append_nil _).symm) hmarks' hcut.opens
      (.inl rfl)
    exact ⟨z, [], h.trail_blank, rfl, hfront.trans (List.append_assoc ..), rfl⟩
  · have hopens' : v ++ z = [] ∨ (vMarks ++ List.replicate z.length mark).head? = some true := by
      by_cases hv : v = []
      · subst hv
        obtain rfl : vMarks = [] := List.eq_nil_of_length_eq_zero hmarked.length_tailMarks
        cases z with
        | nil => exact .inl rfl
        | cons c z => exact .inr (by simpa [List.replicate_succ] using hquiet)
      · exact .inr (by simp [List.head?_append, hopens.resolve_left hv])
    obtain ⟨hfront, rfl⟩ := split_unique htext hmarks hcut.opens hopens'
    exact ⟨[], z, rfl, h.trail_blank, by simpa using hfront, rfl⟩

theorem setCode_trail (f : Front) (column : Int) (body : Text) {z : Text}
    (hz : allBlank z = true) : setCode f column (body ++ z) = setCode f column body := by
  rw [setCode, setCode, Text.allBlank_append, hz, Bool.and_true, Text.trim_append_of_allBlank hz]

/-- What is set in columns comes from the text in the line, whatever the blanks around it are. -/
theorem IsCut.exists_body {front gap : Text} (hsharp : conv.Sharp)
    (hcut : IsCut conv continued text kind f body tail tailMarks)
    (h : Framed text lead (u ++ v) z)
    (hmarked : Marked conv continued (u ++ v) (List.replicate u.length false ++ vMarks))
    (hopens : v = [] ∨ vMarks.head? = some true)
    (hlead : f.lead = front ++ gap) (hlength : front.length = lead.length) :
    ∃ core, u = (gap ++ (f.margin ++ (f.gap ++ f.head))) ++ core ∧
      (∀ column, setCode f column body = setCode f column core) ∧
      tail.trimRight = v.trimRight := by
  obtain ⟨z₁, z₂, hz₁, hz₂, hfront, rfl⟩ := hcut.exists_of_framed hsharp h hmarked hopens
  rw [Front.text, hlead, List.append_assoc, List.append_assoc] at hfront
  have hbody := (List.append_inj hfront hlength).2
  rw [← List.append_assoc] at hbody
  obtain ⟨core, rfl, hcore⟩ := Text.exists_of_tail hz₁ (Layout.trimRight_front hcut.fits gap) hbody
  refine ⟨core, hcore, fun column => setCode_trail f column core hz₁, ?_⟩
  rw [Text.trimRight_append, if_pos hz₂]

end cuts

end Line

/-! ## Lines -/

open Line (Kind Front Fits Framed IsCut Alike Marked readText insideBlock)

section lines

variable {conv : Convention} {continued : Bool} {text text' : Text} (hsharp : conv.Sharp)
  (htrim : text.trim = text'.trim)

theorem comment_of_ink {marks : List Bool} (hink : allBlank text = false)
    (h : Marked conv continued text marks) (hcode : allBlank (blanked marks text) = true) :
    (readText conv continued text).kind = .comment := by
  rcases (Line.readText_of_allBlank h hcode).2 with hkind | ⟨_, hblank⟩
  · exact hkind
  · rw [hink] at hblank
    cases hblank

include hsharp

/-- A line of comment that is not entered inside a comment opens one with its first ink. -/
theorem mark_isPrefixOf_of_comment (hentry : (continued && conv.isBlock) = false)
    (hkind : (readText conv continued text).kind = .comment) :
    conv.mark.isPrefixOf text.trimLeft = true := by
  have hink : allBlank text = false := by
    rw [Bool.eq_false_iff]
    intro hblank
    have houtside : insideBlock conv continued text = false := by
      rw [insideBlock, hentry, Bool.false_and]
    simp [kind_of_allBlank hsharp hblank houtside] at hkind
  obtain ⟨c, more, htrim, hc⟩ := Text.exists_trim_eq_cons hink
  have hkind' := (readText_comment_trim hsharp Text.allBlank_nil hkind).1
  rw [List.nil_append, htrim] at hkind'
  obtain ⟨marks, h⟩ := Line.exists_marked conv continued (c :: more)
  have hblank := allBlank_of_comment h hkind'
  have hopens : marks.head? = some true := by
    cases marks with
    | nil => simp [hc] at hblank
    | cons mark marks =>
        cases mark with
        | false => simp [blanked, hc] at hblank
        | true => rfl
  have hscans := h.scans
  rw [Comment.Mode.entry, hentry] at hscans
  rw [← mark_isPrefixOf_trim hsharp Text.allBlank_nil text, List.nil_append, Text.trimLeft_trim,
    htrim, List.isPrefixOf_iff_prefix]
  exact Comment.prefix_of_scans hscans hopens

include htrim

theorem mark_isPrefixOf_congr :
    conv.mark.isPrefixOf text.trimLeft = conv.mark.isPrefixOf text'.trimLeft := by
  rw [← mark_isPrefixOf_trim hsharp Text.allBlank_nil text,
    ← mark_isPrefixOf_trim hsharp Text.allBlank_nil text', htrim]

/-- Two lines of comment with the same text between blanks are of the same sort. -/
theorem comment_congr (hkind : (readText conv continued text).kind = .comment)
    (hkind' : (readText conv continued text').kind = .comment) :
    (readText conv continued text).isDoc = (readText conv continued text').isDoc ∧
      (readText conv continued text).depth = (readText conv continued text').depth := by
  obtain ⟨_, hdoc, hdepth⟩ := readText_comment_trim hsharp Text.allBlank_nil hkind
  obtain ⟨_, hdoc', hdepth'⟩ := readText_comment_trim hsharp Text.allBlank_nil hkind'
  rw [← hdoc, ← hdepth, ← hdoc', ← hdepth', htrim]
  exact ⟨rfl, rfl⟩

end lines

namespace Settings

section line

variable {settings : Settings} {continued : Bool} {text text' lead lead' t z z' laid : Text}
  (hvalid : settings.Valid)
include hvalid

theorem lays_iff_of_allBlank (hblank : allBlank text = true) :
    settings.Lays continued text laid ↔ laid = [] := by
  have hsharp := Comment.sharp_ofStyle settings.style
  rw [lays_iff hvalid]
  cases hinside : insideBlock (.ofStyle settings.style) continued text with
  | false =>
      have hkind := kind_of_allBlank hsharp hblank hinside
      simp [Layout.isTooWide, Layout.line, hkind, eq_comm]
  | true =>
      have hkind : (readText (.ofStyle settings.style) continued text).kind = .comment := by
        simp [readText, hinside]
      have hleft : text.trimLeft = [] :=
        List.dropWhile_eq_nil_iff.mpr (Text.allBlank_iff.mp hblank)
      have hmark : (Convention.ofStyle settings.style).mark.isPrefixOf [] = false := by
        cases hcons : (Convention.ofStyle settings.style).mark with
        | nil => exact absurd hcons hsharp.mark_ne
        | cons c mark => rfl
      simp [Layout.isTooWide, Layout.line, hkind, commentLine, hleft, hmark,
        Text.trimRight_of_allBlank hblank, eq_comm]

section framed

variable (h : Framed text lead t z) (h' : Framed text' lead' t z')
include h h'

theorem lays_iff_of_framed_comments
    (hlead : lead = lead' ∨ (continued && (Convention.ofStyle settings.style).isBlock) = false)
    (hkind : (readText (.ofStyle settings.style) continued text).kind = .comment)
    (hkind' : (readText (.ofStyle settings.style) continued text').kind = .comment) :
    settings.Lays continued text laid ↔ settings.Lays continued text' laid := by
  have hsharp := Comment.sharp_ofStyle settings.style
  have htrim : text'.trim = text.trim := h'.trim_eq.trans h.trim_eq.symm
  obtain ⟨hdoc, hdepth⟩ := comment_congr hsharp htrim hkind' hkind
  have hmark := mark_isPrefixOf_congr hsharp htrim
  refine lays_iff_of_comments hvalid hkind hkind' hdoc hdepth hmark fun column => ?_
  rw [commentLine, commentLine, hmark, htrim]
  rcases hlead with rfl | hentry
  · rw [h.trimRight_eq, h'.trimRight_eq]
  · rw [if_pos (mark_isPrefixOf_of_comment hsharp hentry hkind),
      if_pos (mark_isPrefixOf_of_comment hsharp hentry hkind)]

theorem lays_iff_of_framed_cuts {kind : Kind} {f f' : Front} {front front' gap : Text}
    {body body' tail tail' : Text} {tailMarks tailMarks' : List Bool}
    (hcut : IsCut (.ofStyle settings.style) continued text kind f body tail tailMarks)
    (hcut' : IsCut (.ofStyle settings.style) continued text' kind f' body' tail' tailMarks')
    (hlead : f.lead = front ++ gap) (hlength : front.length = lead.length)
    (hf' : f' = ⟨front' ++ gap, f.margin, f.gap, f.head⟩)
    (hlength' : front'.length = lead'.length) :
    settings.Lays continued text laid ↔ settings.Lays continued text' laid := by
  have hsharp := Comment.sharp_ofStyle settings.style
  obtain ⟨marks, hmarked⟩ := Line.exists_marked (.ofStyle settings.style) continued t
  obtain ⟨u, v, vMarks, rfl, rfl, hopens⟩ := Line.exists_split hmarked.scans.length_marks
  obtain ⟨core, hcore, hbody, htail⟩ :=
    hcut.exists_body hsharp h hmarked hopens hlead hlength
  obtain ⟨core', hcore', hbody', htail'⟩ :=
    hcut'.exists_body hsharp h' hmarked hopens (congrArg Front.lead hf') hlength'
  subst hf'
  obtain rfl : core = core' := List.append_cancel_left (hcore.symm.trans hcore')
  refine lays_iff_of_cuts hvalid hcut hcut' rfl rfl ?_ (htail'.trans htail.symm)
  rw [hbody]
  exact hbody' _

/-- Lines with a shape have the same shape in both frames, and both are indented as a whole or both
are set in columns. -/
theorem lays_iff_of_framed_fits {kind : Kind} {f : Front} {rest : Text} {marks : List Bool}
    (hstart : lead = [] ↔ lead' = [])
    (hmarked : Marked (.ofStyle settings.style) continued text marks)
    (hcode : blanked marks text = f.text ++ rest) (hfits : Fits kind f rest) :
    settings.Lays continued text laid ↔ settings.Lays continued text' laid := by
  have hsharp := Comment.sharp_ofStyle settings.style
  have hink : allBlank t = false := h.allBlank_eq.symm.trans (ink_of_fits hcode hfits)
  obtain ⟨core, marks₁, marks', front, front', back, back', hframe, hframe', hlength, hlength',
    hstart', hbehind⟩ := Framed.exists_frames hsharp continued h h' hstart hink
  obtain rfl := (hmarked.scans.unique hframe.marked.scans).1
  obtain ⟨gap, rest', hlead, hcode', hfits'⟩ := hframe.reset hframe' hstart' hcode hfits
  have hrigid' : isRigid (readText (.ofStyle settings.style) continued text') =
      isRigid (readText (.ofStyle settings.style) continued text) := by
    by_cases hhead : f.head = []
    · rw [Layout.not_isRigid_of_head hmarked hcode hfits hhead,
        Layout.not_isRigid_of_head hframe'.marked hcode' hfits' hhead]
    · rw [Line.isRigid_of_fits hmarked hcode hfits hhead,
        Line.isRigid_of_fits hframe'.marked hcode' hfits' hhead, hbehind]
  cases hrigid : isRigid (readText (.ofStyle settings.style) continued text) with
  | true =>
      rw [hrigid] at hrigid'
      rw [(indents_of_fits hmarked hcode hfits hrigid).lays_iff hvalid,
        (indents_of_fits hframe'.marked hcode' hfits' hrigid').lays_iff hvalid, h.trim_eq,
        h'.trim_eq]
  | false =>
      rw [hrigid] at hrigid'
      obtain ⟨body, tail, tailMarks, hcut⟩ := Line.exists_cut hmarked hcode hfits hrigid
      obtain ⟨body', tail', tailMarks', hcut'⟩ :=
        Line.exists_cut hframe'.marked hcode' hfits' hrigid'
      exact lays_iff_of_framed_cuts hvalid h h' hcut hcut' hlead hlength rfl hlength'

theorem lays_iff_of_framed (hstart : lead = [] ↔ lead' = [])
    (hlead : lead = lead' ∨ (continued && (Convention.ofStyle settings.style).isBlock) = false) :
    settings.Lays continued text laid ↔ settings.Lays continued text' laid := by
  have hsharp := Comment.sharp_ofStyle settings.style
  cases hink : allBlank t with
  | true =>
      rw [lays_iff_of_allBlank hvalid (h.allBlank_eq.trans hink),
        lays_iff_of_allBlank hvalid (h'.allBlank_eq.trans hink)]
  | false =>
      obtain ⟨core, marks, marks', front, front', back, back', hframe, hframe', -, -, hstart', -⟩ :=
        Framed.exists_frames hsharp continued h h' hstart hink
      have hcodes : allBlank (blanked marks' text') = allBlank (blanked marks text) := by
        rw [hframe.code_eq, hframe'.code_eq]
        simp [hframe.front_blank, hframe.back_blank, hframe'.front_blank, hframe'.back_blank]
      obtain ⟨marks₁, hmarked, hblank | ⟨hcode, hshapeless⟩ | ⟨kind, f, rest, hcode, hfits⟩⟩ :=
        Line.readText_cases (.ofStyle settings.style) continued text
      · obtain rfl := (hmarked.scans.unique hframe.marked.scans).1
        exact lays_iff_of_framed_comments hvalid h h' hlead
          (comment_of_ink (h.allBlank_eq.trans hink) hmarked hblank)
          (comment_of_ink (h'.allBlank_eq.trans hink) hframe'.marked (hcodes.trans hblank))
      · obtain rfl := (hmarked.scans.unique hframe.marked.scans).1
        have hkind := (unknown_of_shapeless hmarked hcode hshapeless).1
        have hkind' := (unknown_of_shapeless hframe'.marked (hcodes.trans hcode)
          (hframe.shapeless hframe' hstart' hshapeless)).1
        rw [(indents_of_unknown hkind).lays_iff hvalid, (indents_of_unknown hkind').lays_iff hvalid,
          h.trim_eq, h'.trim_eq]
      · exact lays_iff_of_framed_fits hvalid h h' hstart hmarked hcode hfits

end framed

/-- Two lines that are alike have the same layout, or none, and leave open the same comment. -/
theorem page_line_congr (h : Alike continued text text') :
    settings.page.line (settings.read continued text) =
        settings.page.line (settings.read continued text') ∧
      (readText (.ofStyle settings.style) continued text).endsOpen =
        (readText (.ofStyle settings.style) continued text').endsOpen := by
  have hsharp := Comment.sharp_ofStyle settings.style
  obtain ⟨lead, lead', t, z, z', hframed, hframed', hstart, hlead⟩ := h.exists_framed
  refine ⟨?_, (hframed.endsOpen_eq hsharp).trans (hframed'.endsOpen_eq hsharp).symm⟩
  have hentry : lead = lead' ∨ (continued && (Convention.ofStyle settings.style).isBlock) = false :=
    hlead.imp_right fun hcontinued => by rw [hcontinued, Bool.false_and]
  have hlays : ∀ laid, settings.Lays continued text laid ↔ settings.Lays continued text' laid :=
    fun laid => lays_iff_of_framed hvalid hframed hframed' hstart hentry
  rcases page_line_cases hvalid continued text with ⟨column, hok⟩ | ⟨herror, _⟩
  · exact hok.trans ((hlays _).mp hok).symm
  · rcases page_line_cases hvalid continued text' with ⟨column', hok'⟩ | ⟨herror', _⟩
    · exact ((hlays _).mpr hok').trans hok'.symm
    · exact herror.trans herror'.symm

/-- Inside a comment the indentation is part of the text. -/
example :
    let settings : Settings := { style := .blockSlashStar }
    settings.page.line (settings.read true " a".toList) = .ok " a".toList ∧
      settings.page.line (settings.read true "\ta".toList) = .ok "\ta".toList :=
  ⟨by rfl, by rfl⟩

end line

/-! ## Texts -/

/-- The induction is on the lines; lines that are alike hand on the same flag. -/
theorem layoutLines_congr {settings : Settings} (hvalid : settings.Valid) {continued : Bool}
    {lines lines' : List Text} (hlength : lines.length = lines'.length)
    (halike : ∀ number line line', lines[number]? = some line → lines'[number]? = some line' →
      Alike (Line.entersOpen continued (settings.readLines continued lines) number) line line') :
    Session.layoutLines settings.page (settings.readLines continued lines) =
      Session.layoutLines settings.page (settings.readLines continued lines') := by
  induction lines generalizing continued lines' with
  | nil =>
      obtain rfl := List.eq_nil_of_length_eq_zero hlength.symm
      rfl
  | cons line rest ih =>
      cases lines' with
      | nil => cases hlength
      | cons line' rest' =>
          have hfirst : Alike continued line line' := halike 0 line line' rfl rfl
          obtain ⟨hline, hopen⟩ := page_line_congr hvalid hfirst
          rw [read_eq, read_eq] at hline
          rw [readLines_cons, readLines_cons, Session.layoutLines_cons, Session.layoutLines_cons,
            hline, ← hopen, ih (Nat.succ.inj hlength)]
          intro number other other' hother hother'
          have hnext := halike (number + 1) other other' hother hother'
          rw [readLines_cons] at hnext
          cases number with
          | zero => exact hnext
          | succ number => exact hnext

end Settings

namespace Session

variable {s : Session} {a b : Text}

/-- In any session on valid settings, two texts have the same layout if they have as many lines and
each line of one is that of the other up to blanks without a meaning: those at its end, and an
indentation for another one where no comment is open. -/
theorem layout_eq_of_alike (hs : s.Reachable) (hlength : a.lines.length = b.lines.length)
    (halike : ∀ number line line', a.lines[number]? = some line → b.lines[number]? = some line' →
      Alike (Line.entersOpen false (s.readText a).1 number) line line') :
    (s.layout b).1 = (s.layout a).1 ∧ ((s.layout a).2.layout b).1 = (s.layout a).1 := by
  have h := hs.coherent
  rw [h.readText_settings] at halike
  have hlines := Settings.layoutLines_congr h.valid hlength halike
  have hsame : (s.layout b).1 = (s.layout a).1 := by
    rw [h.layout_eq, h.layout_eq]
    exact congrArg (Except.map Text.unlines) hlines.symm
  have hnext : (s.layout a).2.Coherent := h.readText a
  exact ⟨hsame, (hnext.layout_eq b).trans ((h.layout_eq b).symm.trans hsame)⟩

/-- A tab stands for spaces in front of the code, and blanks come and go at the ends of the lines.
The second line is entered inside the comment, and keeps its indentation. -/
theorem layout_eq_of_alike_block_comment :
    let s := ofSettings { style := .blockSlashStar }
    let a : Text := "\tmov b /* c\n d \n*/".toList
    let b : Text := "  mov b /* c  \n d\n*/\t".toList
    s.Reachable ∧ a ≠ b ∧
      (s.layout b).1 = .ok "        mov b                   /* c\n d\n*/".toList := by
  have hlines : layoutLines ({ style := .blockSlashStar } : Settings).page
      (({ style := .blockSlashStar } : Settings).readLines false
        (Text.lines "\tmov b /* c\n d \n*/".toList)) =
      .ok (Text.lines "        mov b                   /* c\n d\n*/".toList) := by rfl
  intro s a b
  have hs : s.Reachable :=
    reachable_ofSettings ⟨by decide, by decide, by decide, by decide⟩
  have hlaid := hs.coherent.layout_eq_ok_iff.mpr hlines
  have halike : ∀ number line line', a.lines[number]? = some line → b.lines[number]? = some line' →
      Alike (Line.entersOpen false (s.readText a).1 number) line line' := by
    rw [hs.coherent.readText_settings]
    intro number line line' hline hline'
    match number with
    | 0 =>
        cases hline
        cases hline'
        exact @Alike.indent _ "\t".toList "  ".toList "mov b /* c".toList [] "  ".toList rfl
          ⟨by decide, List.all_eq_true.mp (by decide)⟩
          ⟨by decide, List.all_eq_true.mp (by decide)⟩ rfl rfl
    | 1 =>
        cases hline
        cases hline'
        exact @Alike.trail _ " d".toList " ".toList [] rfl rfl
    | 2 =>
        cases hline
        cases hline'
        exact @Alike.trail _ "*/".toList [] "\t".toList rfl rfl
    | number + 3 => cases hline
  have hlength : a.lines.length = b.lines.length := by decide
  exact ⟨hs, by decide, (layout_eq_of_alike hs hlength halike).1.trans hlaid⟩

end Session

end AsmColumns
