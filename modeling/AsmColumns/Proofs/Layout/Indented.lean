import AsmColumns.Proofs.Layout.Boundary
import AsmColumns.Proofs.Layout.Preservation
import AsmColumns.Proofs.Layout.Reread

/-!
# Lines indented twice

A line that is indented as a whole is read again between other blanks.  A line of comment is the
same line of comment then, and so is a line with a shape, if it starts at the margin in both
places or in neither.  A condition at the margin is lost when it is indented, which leaves a line
without a shape.  A line without a shape may gain one: if it starts with a word at the margin, that
word is an operation once it is indented, and the second layout sets it apart from what touches it.
-/

namespace AsmColumns

namespace Layout

/-- Whether a line without a shape becomes an operation when it is indented: it starts with a word
at the margin, and no code comes behind its first comment. -/
def gainsHead (r : Line.Reading) : Bool :=
  r.kind == .unknown && (Line.codeOf r.comments r.text).head?.any Text.isWord &&
    Text.allBlank r.behindComment

/-- Whether a condition stands at the margin of a line that is indented as a whole. -/
def strandsCondition (r : Line.Reading) : Bool :=
  isRigid r && r.condition.isSome

end Layout

open Comment (Convention blanked)
open Layout (isRigid commentLine gainsHead strandsCondition)
open Line (Front Fits Kind IsFrame Marked readText insideBlock commentDepth)
open Text (isBlank isWord allBlank)

/-! ## Lines of comment -/

section comment

variable {conv : Convention} {continued : Bool} {text lead : Text}

theorem takeWhile_trail {c : Char} {z : Text} (hc : isBlank c = false) (hz : allBlank z = true)
    (t : Text) : (t ++ z).takeWhile (· == c) = t.takeWhile (· == c) := by
  have hblank : z.takeWhile (· == c) = [] := by
    cases z with
    | nil => rfl
    | cons d z =>
        have hd : isBlank d = true := Text.allBlank_iff.mp hz d List.mem_cons_self
        have hne : (d == c) = false := by
          rw [beq_eq_false_iff_ne]
          rintro rfl
          simp [hc] at hd
        rw [List.takeWhile_cons_of_neg (by simp [hne])]
  rw [List.takeWhile_append, hblank, List.append_nil]
  split
  · next hlength => exact ((List.takeWhile_prefix _).eq_of_length hlength).symm
  · rfl

theorem mem_mark_of_repeatChar? {c : Char} (h : conv.repeatChar? = some c) : c ∈ conv.mark := by
  unfold Convention.repeatChar? at h
  split at h
  · cases h
  · next d rest hmark =>
    rw [hmark]
    split at h
    · rw [Option.some.inj h]
      exact List.mem_cons_self
    · cases h

theorem allBlank_of_comment {marks : List Bool} (h : Marked conv continued text marks)
    (hkind : (readText conv continued text).kind = .comment) :
    allBlank (blanked marks text) = true := by
  obtain ⟨marks', h', hblank | ⟨hcode, hshapeless⟩ | ⟨kind, f, rest, hcode, hfits⟩⟩ :=
    Line.readText_cases conv continued text
  · rwa [(h.scans.unique h'.scans).1]
  · simp [Line.readText_of_shapeless h' hcode hshapeless] at hkind
  · rw [Line.readText_of_fits h' hcode hfits] at hkind
    obtain rfl : kind = .comment := hkind
    rcases hfits.kind_eq with hother | hother | hother <;> cases hother

theorem isRigid_of_comment (hkind : (readText conv continued text).kind = .comment) :
    isRigid (readText conv continued text) = true := by
  obtain ⟨marks, h⟩ := Line.exists_marked conv continued text
  exact Line.isRigid_of_bare (Line.readText_of_allBlank h (allBlank_of_comment h hkind)).1

/-- Only an operation has a condition. -/
theorem condition_of_kind (hkind : (readText conv continued text).kind ≠ .operation) :
    (readText conv continued text).condition = none := by
  obtain ⟨marks, h, hblank | ⟨hcode, hshapeless⟩ | ⟨kind, f, rest, hcode, hfits⟩⟩ :=
    Line.readText_cases conv continued text
  · exact (Line.readText_of_allBlank h hblank).1.condition
  · rw [Line.readText_of_shapeless h hcode hshapeless]
    rfl
  · rw [Line.readText_of_fits h hcode hfits] at hkind ⊢
    exact if_neg fun hcondition => hkind hcondition.1

theorem strandsCondition_of_kind
    (hkind : (readText conv continued text).kind ≠ .operation) :
    strandsCondition (readText conv continued text) = false := by
  rw [strandsCondition, condition_of_kind hkind]
  exact Bool.and_false _

theorem ink_of_fits {kind : Kind} {f : Front} {rest : Text} {marks : List Bool}
    (hcode : blanked marks text = f.text ++ rest) (hfits : Fits kind f rest) :
    allBlank text = false := by
  rw [Bool.eq_false_iff]
  intro hblank
  have hblanked := Comment.allBlank_blanked marks hblank
  rw [hcode, Text.allBlank_append, hfits.not_allBlank] at hblanked
  cases hblanked

section again

variable (hsharp : conv.Sharp) (hlead : allBlank lead = true)
include hsharp hlead

theorem mark_isPrefixOf_trim (text : Text) :
    conv.mark.isPrefixOf (Text.trimLeft (lead ++ text.trim)) =
      conv.mark.isPrefixOf text.trimLeft := by
  rw [Text.trimLeft_lead hlead, Text.trimLeft_trim, Text.trimLeft_eq_trim text,
    Comment.isPrefixOf_trail hsharp.mark_ink (Text.allBlank_takeTail text.trimLeft)]

theorem commentDepth_trim (text : Text) :
    commentDepth conv (lead ++ text.trim) = commentDepth conv text := by
  have htail := Text.allBlank_takeTail text.trimLeft
  unfold commentDepth
  simp only [mark_isPrefixOf_trim hsharp hlead]
  rw [Text.trimLeft_lead hlead, Text.trimLeft_trim]
  cases hrepeat : conv.repeatChar? with
  | none => rfl
  | some c =>
      have hc := hsharp.mark_ink c (mem_mark_of_repeatChar? hrepeat)
      simp only
      rw [Text.trimLeft_eq_trim text, takeWhile_trail hc htail]

theorem insideBlock_trim (text : Text) :
    insideBlock conv continued (lead ++ text.trim) = insideBlock conv continued text := by
  unfold insideBlock
  cases hblock : conv.isBlock with
  | false => simp
  | true =>
      have hne : conv.closing ≠ [] := by
        rintro hnil
        simp [Convention.isBlock, hnil] at hblock
      have hoccurs : Text.occursIn conv.closing (lead ++ text.trim) =
          Text.occursIn conv.closing text := by
        have htext := Text.lead_trim_tail text
        unfold Text.occursIn
        conv_rhs => rw [← htext, Text.offsetOf?_lead hne hsharp.closing_ink
          (Text.allBlank_takeWhile text), Text.offsetOf?_tail hne hsharp.closing_ink
          (Text.allBlank_takeTail text.trimLeft)]
        rw [Text.offsetOf?_lead hne hsharp.closing_ink hlead]
        simp
      rw [hoccurs]

/-- A line with ink and the same line between other blanks, as two frames of the same code. -/
theorem exists_frames (hink : allBlank text = false) :
    ∃ core marks marks' front front' back back',
      IsFrame conv continued text marks front core back ∧
      IsFrame conv continued (lead ++ text.trim) marks' front' core back' ∧
      front'.length = lead.length ∧
      allBlank (readText conv continued (lead ++ text.trim)).behindComment =
        allBlank (readText conv continued text).behindComment := by
  have hne : text.trim ≠ [] := by
    rw [Ne, Text.trim_eq_nil_iff, hink]
    exact Bool.false_ne_true
  obtain ⟨marks, h⟩ := Line.exists_marked conv continued text.trim
  obtain ⟨marks₁, front₁, back₁, hframe₁, _, hbehind₁⟩ := Line.exists_frame hsharp
    (Text.allBlank_takeWhile text) (Text.allBlank_takeTail text.trimLeft) hne h
  obtain ⟨marks₂, front₂, back₂, hframe₂, hlength₂, hbehind₂⟩ :=
    Line.exists_frame hsharp hlead Text.allBlank_nil hne h
  rw [Text.lead_trim_tail] at hframe₁ hbehind₁
  rw [List.append_nil] at hframe₂ hbehind₂
  exact ⟨_, _, _, _, _, _, _, hframe₁, hframe₂, hlength₂, hbehind₂.trans hbehind₁.symm⟩

omit hlead in
theorem kind_of_allBlank (hblank : allBlank text = true)
    (houtside : insideBlock conv continued text = false) :
    (readText conv continued text).kind = .blank := by
  have hentry : Comment.Mode.entry conv continued = .code {} none := by
    unfold Comment.Mode.entry
    split
    · next hblock =>
      have hclosing : conv.closing ≠ [] := by
        intro hnil
        simp [Convention.isBlock, hnil] at hblock
      have hnone : Text.offsetOf? conv.closing text = none := by
        have htail := Text.offsetOf?_tail (t := []) hclosing hsharp.closing_ink hblank
        simpa [Text.offsetOf?, hclosing] using htail
      simp [insideBlock, hblock, Text.occursIn, hnone] at houtside
    · rfl
  have hwalks : Comment.Walks conv {} none text [] {} :=
    .plain hsharp fun c hc => .inr (Text.allBlank_iff.mp hblank c hc)
  have hscans := hwalks.scans .done
  rw [List.append_nil, List.append_nil, ← hentry] at hscans
  obtain ⟨h, _⟩ := Line.marked_of_scans hscans
  rw [Line.readText_eq_of_allBlank h (Comment.allBlank_blanked _ hblank), houtside,
    h.spells.eq_nil_of_bare]
  rfl

/-- A line of comment, between other blanks, is the same line of comment. -/
theorem readText_comment_trim (hkind : (readText conv continued text).kind = .comment) :
    let new := readText conv continued (lead ++ text.trim)
    new.kind = .comment ∧ new.isDoc = (readText conv continued text).isDoc ∧
      new.depth = (readText conv continued text).depth := by
  intro new
  have hinside := @insideBlock_trim conv continued lead hsharp hlead text
  cases hold : insideBlock conv continued text with
  | true =>
      rw [hold] at hinside
      simp [new, readText, hold, hinside]
  | false =>
      rw [hold] at hinside
      have hink : allBlank text = false := by
        rw [Bool.eq_false_iff]
        intro hblank
        simp [kind_of_allBlank hsharp hblank hold] at hkind
      obtain ⟨core, marks, marks', front, front', back, back', h, h', _, _⟩ :=
        @exists_frames conv continued text lead hsharp hlead hink
      have hcode := allBlank_of_comment h.marked hkind
      have hcode' : allBlank (blanked marks' (lead ++ text.trim)) = true := by
        rw [h.code_eq, Text.allBlank_append, Text.allBlank_append] at hcode
        simp only [Bool.and_eq_true] at hcode
        simp [h'.code_eq, h'.front_blank, h'.back_blank, hcode.2.1]
      have hkind' : new.kind = .comment := by
        rcases (Line.readText_of_allBlank h'.marked hcode').2 with hcomment | ⟨_, hblank⟩
        · exact hcomment
        · rw [Text.allBlank_append, Text.allBlank_trim, hink, Bool.and_false] at hblank
          cases hblank
      have hnew : new = _ := Line.readText_eq_of_allBlank h'.marked hcode'
      have htext := Line.readText_eq_of_allBlank h.marked hcode
      rw [hinside] at hnew
      rw [hold] at htext
      simp only [Bool.false_eq_true, if_false] at hnew htext
      split at hnew
      · simp [hnew] at hkind'
      · split at htext
        · simp [htext] at hkind
        · refine ⟨hkind', ?_, ?_⟩
          · rw [hnew, htext, commentDepth_trim hsharp hlead]
          · rw [hnew, htext, commentDepth_trim hsharp hlead]

/-- A line with a head, between other blanks, has the same head, if it starts at the margin in both
or in neither of them. -/
theorem exists_fits_trim {kind : Kind} {f : Front} {rest : Text} {marks : List Bool}
    (h : Marked conv continued text marks) (hcode : blanked marks text = f.text ++ rest)
    (hfits : Fits kind f rest) (hhead : f.head ≠ [])
    (hstart : kind ≠ .directive → (lead = [] ↔ f.lead = [])) :
    ∃ marks' f' rest', Marked conv continued (lead ++ text.trim) marks' ∧
      blanked marks' (lead ++ text.trim) = f'.text ++ rest' ∧ Fits kind f' rest' ∧
      f'.margin = f.margin ∧ f'.head = f.head ∧
      isRigid (readText conv continued (lead ++ text.trim)) =
        isRigid (readText conv continued text) := by
  have hink := ink_of_fits hcode hfits
  obtain ⟨core, marks₁, marks', front, front', back, back', hframe, hframe', hlength, hbehind⟩ :=
    @exists_frames conv continued text lead hsharp hlead hink
  obtain rfl := (h.scans.unique hframe.marked.scans).1
  obtain ⟨gap, rest', hlead', hcode', hreset⟩ := hframe.exists_fits hframe' hcode hfits hhead
  have hfits' : Fits kind ⟨front' ++ gap, f.margin, f.gap, f.head⟩ rest' := by
    refine hreset fun hkind => ?_
    rw [← hstart hkind, List.append_eq_nil_iff]
    have hfront : front' = [] ↔ lead = [] := by
      rw [← List.length_eq_zero_iff, hlength, List.length_eq_zero_iff]
    refine ⟨fun hnil => hfront.mp hnil.1, fun hnil => ⟨hfront.mpr hnil, ?_⟩⟩
    rw [hstart hkind, hlead', List.append_eq_nil_iff] at hnil
    exact hnil.2
  refine ⟨marks', _, rest', hframe'.marked, hcode', hfits', rfl, rfl, ?_⟩
  rw [Line.isRigid_of_fits hframe'.marked hcode' hfits' hhead,
    Line.isRigid_of_fits h hcode hfits hhead, hbehind]

end again

end comment

namespace Settings

section again

variable {settings : Settings} {continued : Bool} {text laid : Text}

/-- Two lines of comment of the same sort have the same layout if they are moved alike. -/
theorem lays_iff_of_comments (hvalid : settings.Valid) {text' : Text}
    (hkind : (readText (.ofStyle settings.style) continued text).kind = .comment)
    (hkind' : (readText (.ofStyle settings.style) continued text').kind = .comment)
    (hdoc : (readText (.ofStyle settings.style) continued text').isDoc =
      (readText (.ofStyle settings.style) continued text).isDoc)
    (hdepth : (readText (.ofStyle settings.style) continued text').depth =
      (readText (.ofStyle settings.style) continued text).depth)
    (hmark : (Convention.ofStyle settings.style).mark.isPrefixOf text'.trimLeft =
      (Convention.ofStyle settings.style).mark.isPrefixOf text.trimLeft)
    (hline : ∀ column, commentLine (.ofStyle settings.style) column text' =
      commentLine (.ofStyle settings.style) column text) :
    settings.Lays continued text laid ↔ settings.Lays continued text' laid := by
  have hcolumn : settings.page.column (readText (.ofStyle settings.style) continued text') =
      settings.page.column (readText (.ofStyle settings.style) continued text) := by
    rw [page, Layout.column_whole, Layout.column_whole, hkind', hkind, hdoc, hdepth,
      Line.degraded_readText, Line.degraded_readText]
  rw [lays_iff hvalid, lays_iff hvalid]
  simp only [hcolumn, Layout.isTooWide, Layout.line, hkind, hkind', Line.text_readText, hmark,
    hline]

theorem lays_self_of_comment (hvalid : settings.Valid)
    (hkind : (readText (.ofStyle settings.style) continued text).kind = .comment)
    (hlays : settings.Lays continued text laid) :
    settings.Lays continued laid laid ∧
      (readText (.ofStyle settings.style) continued laid).kind = .comment := by
  have hsharp := Comment.sharp_ofStyle settings.style
  obtain ⟨hwide, hlaid⟩ := (lays_iff hvalid).mp hlays
  obtain ⟨lead, hlead, htrim⟩ := Layout.exists_lead settings.stops _ settings.commentColumn
    (isRigid_of_comment hkind)
  rw [hlaid] at htrim
  subst htrim
  obtain ⟨hkind', hdoc, hdepth⟩ := readText_comment_trim hsharp hlead hkind
  have hprefix := mark_isPrefixOf_trim hsharp hlead text
  refine ⟨(lays_iff_of_comments hvalid hkind hkind' hdoc hdepth hprefix fun column => ?_).mp hlays,
    hkind'⟩
  simp only [Layout.line, hkind, commentLine, Line.text_readText] at hlaid
  simp only [commentLine, hprefix]
  split at hlaid
  · next hmark => rw [if_pos hmark, if_pos hmark, Text.trim_lead hlead, Text.trim_trim]
  · next hmark => rw [if_neg hmark, if_neg hmark, ← hlaid, Text.trimRight_trimRight]

theorem lays_self_of_blank (hvalid : settings.Valid)
    (hkind : (readText (.ofStyle settings.style) continued text).kind = .blank)
    (hlays : settings.Lays continued text laid) :
    settings.Lays continued laid laid ∧
      (readText (.ofStyle settings.style) continued laid).kind = .blank := by
  have hsharp := Comment.sharp_ofStyle settings.style
  obtain ⟨_, hlaid⟩ := (lays_iff hvalid).mp hlays
  have hblank := Line.allBlank_of_kind hkind
  have houtside : insideBlock (.ofStyle settings.style) continued text = false := by
    rw [Bool.eq_false_iff]
    intro hinside
    simp [readText, hinside] at hkind
  obtain rfl : laid = [] := by simpa [Layout.line, hkind] using hlaid.symm
  have hkind' : (readText (.ofStyle settings.style) continued []).kind = .blank := by
    refine kind_of_allBlank hsharp rfl ?_
    rw [← houtside, ← insideBlock_trim hsharp Text.allBlank_nil text,
      Text.trim_eq_nil_iff.mpr hblank]
    rfl
  refine ⟨(lays_iff hvalid).mpr ⟨?_, ?_⟩, hkind'⟩
  · simp [Layout.isTooWide, hkind']
  · simp [Layout.line, hkind']

theorem Indents.laid_eq {column : Int} (hvalid : settings.Valid)
    (h : settings.Indents continued text column) (hink : allBlank text = false)
    (hlays : settings.Lays continued text laid) : laid = Text.spaces column ++ text.trim := by
  obtain ⟨_, hlaid⟩ := (h.lays_iff hvalid).mp hlays
  rw [← hlaid, Text.trimRight_append, Text.allBlank_trim, hink, Text.trimRight_trim]
  rfl

theorem spaces_first_ne_nil (hvalid : settings.Valid) :
    Text.spaces settings.stops.first ≠ [] := by
  have hfirst : 0 < settings.stops.first := TabStops.first_pos hvalid.width_pos
  rw [Ne, ← List.length_eq_zero_iff, Text.length_spaces]
  omega

theorem ne_nil_of_indent (hvalid : settings.Valid) {front : Text}
    (hlength : front.length = (Text.spaces settings.stops.first).length) : front ≠ [] := by
  rw [Ne, ← List.length_eq_zero_iff, hlength, List.length_eq_zero_iff]
  exact spaces_first_ne_nil hvalid

section rigid

variable {kind : Kind} {f : Front} {rest : Text} {marks : List Bool} {column : Int}
  (hvalid : settings.Valid) (h : Marked (.ofStyle settings.style) continued text marks)
  (hcode : blanked marks text = f.text ++ rest) (hfits : Fits kind f rest)
  (hrigid : isRigid (readText (.ofStyle settings.style) continued text) = true)
include hvalid h hcode hfits hrigid

omit hvalid hrigid in
theorem kind_of_fits : (readText (.ofStyle settings.style) continued text).kind = kind := by
  rw [Line.readText_of_fits h hcode hfits]
  rfl

omit hvalid in
theorem indents_of_fits :
    settings.Indents continued text
      (if kind = .operation then settings.stops.first else 0) := by
  obtain ⟨hmargin, hfirst⟩ := column_of_kind settings continued text
  have hkind := kind_of_fits h hcode hfits
  rw [hkind] at hmargin hfirst
  refine ⟨hrigid, ?_, ?_, ?_⟩
  · rw [hkind]
    rcases hfits.kind_eq with rfl | rfl | rfl <;> decide
  · rw [hkind]
    rcases hfits.kind_eq with rfl | rfl | rfl <;> decide
  · rcases hfits.kind_eq with rfl | rfl | rfl
    · exact hmargin (.inr rfl)
    · exact hmargin (.inl rfl)
    · exact hfirst (.inl rfl)

/-- A line that is indented as a whole and starts with no condition is indented as before. -/
theorem lays_self_of_rigid (hplain : f.margin = [] ∨ kind ≠ .operation)
    (hlays : settings.Lays continued text laid) :
    settings.Lays continued laid laid ∧
      strandsCondition (readText (.ofStyle settings.style) continued laid) = false := by
  have hsharp := Comment.sharp_ofStyle settings.style
  have hindents := indents_of_fits h hcode hfits hrigid
  have hhead : f.head ≠ [] := by
    intro hhead
    simp [Layout.not_isRigid_of_head h hcode hfits hhead] at hrigid
  have hlaid := hindents.laid_eq hvalid (ink_of_fits hcode hfits) hlays
  have hstart : kind ≠ .directive →
      (Text.spaces (if kind = .operation then settings.stops.first else 0) = [] ↔
        f.lead = []) := by
    intro hkind
    cases hfits with
    | directive => exact absurd rfl hkind
    | label | labelled => simp
    | conditional hcondition =>
        obtain ⟨_, _, _, _, _, rfl⟩ := hcondition
        simp at hplain
    | operation hne =>
        simp only [if_true]
        exact iff_of_false (spaces_first_ne_nil hvalid) hne
  obtain ⟨marks', f', rest', h', hcode', hfits', hmargin', hhead', hrigid'⟩ :=
    exists_fits_trim hsharp (Text.allBlank_spaces _) h hcode hfits hhead hstart
  rw [← hlaid, hrigid] at hrigid'
  rw [← hlaid] at h' hcode'
  refine ⟨hindents.lays_self hvalid (indents_of_fits h' hcode' hfits' hrigid') hlays, ?_⟩
  have hcondition : ¬ (kind = .operation ∧ f'.margin ≠ []) := by
    rw [hmargin']
    rintro ⟨hkind, hne⟩
    exact hplain.elim hne (fun hother => hother hkind)
  rw [strandsCondition, Line.readText_of_fits h' hcode' hfits']
  simp [Front.reading, hcondition]

end rigid

/-! ### Lines that lose or gain their shape -/

section unknown

variable {kind : Kind} {f : Front} {rest : Text} {marks : List Bool}

theorem unknown_of_shapeless (h : Marked (.ofStyle settings.style) continued text marks)
    (hink : allBlank (blanked marks text) = false)
    (hshapeless : Line.Shapeless (blanked marks text)) :
    (readText (.ofStyle settings.style) continued text).kind = .unknown ∧
      strandsCondition (readText (.ofStyle settings.style) continued text) = false := by
  rw [strandsCondition, Line.readText_of_shapeless h hink hshapeless]
  exact ⟨rfl, Bool.and_false _⟩

/-- A condition that is indented as a whole is none any more. -/
theorem lays_self_of_condition (hvalid : settings.Valid)
    (h : Marked (.ofStyle settings.style) continued text marks)
    (hcode : blanked marks text = f.text ++ rest) (hfits : Fits .operation f rest)
    (hmargin : f.margin ≠ [])
    (hrigid : isRigid (readText (.ofStyle settings.style) continued text) = true)
    (hlays : settings.Lays continued text laid) :
    settings.Lays continued laid laid ∧
      strandsCondition (readText (.ofStyle settings.style) continued laid) = false := by
  have hsharp := Comment.sharp_ofStyle settings.style
  have hink := ink_of_fits hcode hfits
  have hindents : settings.Indents continued text settings.stops.first := by
    simpa using indents_of_fits h hcode hfits hrigid
  have hlaid := hindents.laid_eq hvalid hink hlays
  obtain ⟨core, marks₁, marks', front, front', back, back', hframe, hframe', hlength, _⟩ :=
    exists_frames hsharp (Text.allBlank_spaces settings.stops.first) hink
  obtain rfl := (h.scans.unique hframe.marked.scans).1
  rw [← hlaid] at hframe'
  have hshapeless := hframe.shapeless_of_condition hframe' (ne_nil_of_indent hvalid hlength) hcode
    hfits hmargin
  obtain ⟨hkind, hstrands⟩ := unknown_of_shapeless hframe'.marked hshapeless.2 hshapeless.1
  exact ⟨hindents.lays_self hvalid (indents_of_unknown hkind) hlays, hstrands⟩

/-- An operation that something touches is set apart from it. -/
theorem not_lays_self_of_touching (hvalid : settings.Valid) {lead word rest : Text} {c : Char}
    (h : Marked (.ofStyle settings.style) continued text marks)
    (hcode : blanked marks text = Front.text ⟨lead, [], [], word⟩ ++ c :: rest)
    (hfits : Fits .operation ⟨lead, [], [], word⟩ (c :: rest)) (hc : isBlank c = false)
    (hlead : lead.length = (Text.spaces settings.stops.first).length)
    (hrigid : isRigid (readText (.ofStyle settings.style) continued text) = false) :
    ¬ settings.Lays continued text text := by
  intro hlays
  obtain ⟨body, tail, tailMarks, hcut⟩ := Line.exists_cut h hcode hfits hrigid
  obtain ⟨more, rfl⟩ : ∃ more, body = c :: more := by
    have hsame := hcut.code_eq
    rw [← (h.scans.unique hcut.marked.scans).1, hcode, List.append_cancel_left_eq] at hsame
    cases body with
    | cons d more => exact ⟨more, by rw [(List.cons.inj hsame).1]⟩
    | nil =>
        have hblank := hcut.head?_blanked_tail
        rw [← List.nil_append (blanked tailMarks tail), ← hsame] at hblank
        simp [hc] at hblank
  obtain ⟨_, _, hlaid⟩ := (lays_iff_of_cut hcut hvalid).mp hlays
  obtain ⟨pad, _, _, hset⟩ := Layout.exists_setFront_of_word hcut.fits
    (hcut.fits.head?_dot_iff (by decide)).1 (settings.headStop .operation ⟨lead, [], [], word⟩)
    settings.commentColumn hc more tail
  have htext := hlaid.symm.trans hset
  rw [hcut.text_eq, headStop] at htext
  simp only [ne_eq, not_true_eq_false, if_false, reduceCtorEq] at htext
  simp only [Front.text, Text.padRight, List.nil_append, List.append_assoc, List.length_nil,
    Int.natCast_zero, Int.sub_zero, List.cons_append] at htext
  have hrest := (List.append_inj (List.append_inj htext hlead).2 rfl).2
  rw [(List.cons.inj hrest).1] at hc
  cases hc

/-- A line without a shape is indented as before unless it gains a head. -/
theorem lays_self_iff_of_unknown (hvalid : settings.Valid)
    (hkind : (readText (.ofStyle settings.style) continued text).kind = .unknown)
    (hlays : settings.Lays continued text laid) :
    (settings.Lays continued laid laid ↔
        gainsHead (readText (.ofStyle settings.style) continued text) = false) ∧
      strandsCondition (readText (.ofStyle settings.style) continued laid) = false := by
  have hsharp := Comment.sharp_ofStyle settings.style
  obtain ⟨marks, h, hblank | ⟨hcode, hshapeless⟩ | ⟨kind, f, rest, hcode, hfits⟩⟩ :=
    Line.readText_cases (.ofStyle settings.style) continued text
  · rcases (Line.readText_of_allBlank h hblank).2 with hother | ⟨hother, _⟩ <;>
      simp [hother] at hkind
  · have hink : allBlank text = false := by
      rw [Bool.eq_false_iff]
      intro hblank
      rw [Comment.allBlank_blanked marks hblank] at hcode
      cases hcode
    have hindents := indents_of_unknown hkind
    have hlaid := hindents.laid_eq hvalid hink hlays
    obtain ⟨core, marks₁, marks', front, front', back, back', hframe, hframe', hlength,
      hbehind⟩ := exists_frames hsharp (Text.allBlank_spaces settings.stops.first) hink
    obtain rfl := (h.scans.unique hframe.marked.scans).1
    rw [← hlaid] at hframe' hbehind
    have hne := ne_nil_of_indent hvalid hlength
    have hgains : gainsHead (readText (.ofStyle settings.style) continued text) =
        ((blanked marks text).head?.any isWord &&
          allBlank (readText (.ofStyle settings.style) continued laid).behindComment) := by
      rw [gainsHead, hkind, hbehind, Line.comments_readText, Line.text_readText, h.codeOf_eq]
      rfl
    rw [hgains]
    cases hword : (blanked marks text).head?.any isWord with
    | false =>
        rw [hframe.code_eq] at hshapeless hword hcode
        have hshapeless' := hshapeless.reset hframe.front_blank hframe.back_blank
          hframe'.front_blank hframe'.back_blank hne hword
        rw [← hframe'.code_eq] at hshapeless'
        have hcode' : allBlank (blanked marks' laid) = false := by
          simp only [hframe'.code_eq, Text.allBlank_append, hframe.front_blank, hframe.back_blank,
            hframe'.front_blank, hframe'.back_blank] at hcode ⊢
          exact hcode
        obtain ⟨hkind', hstrands⟩ := unknown_of_shapeless hframe'.marked hcode' hshapeless'
        exact ⟨iff_of_true (hindents.lays_self hvalid (indents_of_unknown hkind') hlays) rfl,
          hstrands⟩
    | true =>
        rw [hframe.code_eq] at hshapeless hword
        obtain ⟨word, c, more, hc, hcode', hfits'⟩ := hshapeless.exists_fits hframe.front_blank
          hframe.back_blank hframe'.front_blank hne hword back'
        rw [← hframe'.code_eq] at hcode'
        have hrigid := Line.isRigid_of_fits hframe'.marked hcode' hfits'
          (hfits'.head?_dot_iff (by decide)).1
        refine ⟨?_, ?_⟩
        · cases hquiet : allBlank
              (readText (.ofStyle settings.style) continued laid).behindComment with
          | true =>
              rw [hquiet] at hrigid
              exact iff_of_false (not_lays_self_of_touching hvalid hframe'.marked hcode' hfits' hc
                hlength hrigid) (by simp)
          | false =>
              rw [hquiet] at hrigid
              exact iff_of_true (hindents.lays_self hvalid
                (indents_of_fits hframe'.marked hcode' hfits' hrigid) hlays) rfl
        · rw [strandsCondition, Line.readText_of_fits hframe'.marked hcode' hfits']
          simp [Front.reading]
  · rw [kind_of_fits h hcode hfits] at hkind
    rcases hfits.kind_eq with rfl | rfl | rfl <;> cases hkind

end unknown

end again

end Settings

end AsmColumns
