import AsmColumns.Proofs.Layout.Indented

/-!
# A line set in columns, read again

The layout of a line that is cut at its comment has the front of the line with its head in another
column, and a blank or nothing behind that, so it is a line of the same kind.  If its comments are
those of the line, then it is cut where the layout put the comment, and it is its own layout.  It
may also have code behind its first comment.  It is indented as a whole then, and that leaves it
alone unless a condition stands at its margin.
-/

namespace AsmColumns

open Comment (Convention Scans Walks blanked lastOf)
open Layout (isRigid movesBoundary setCode setFront strandsCondition tears)
open Line (Front Fits Kind IsCut Marked readText)
open Text (isBlank allBlank ink)

/-! ## The front of the layout -/

theorem Line.Fits.margin_or_lead {kind : Kind} {f : Front} {rest : Text} (h : Fits kind f rest) :
    (f.margin ≠ [] ∧ f.lead = []) ∨
      (f.margin = [] ∧ f.gap = [] ∧ (kind = .directive ∨ kind = .operation ∧ f.lead ≠ [])) := by
  cases h with
  | directive => exact .inr ⟨rfl, rfl, .inl rfl⟩
  | label hlabel => exact .inl ⟨hlabel.ends.ink.1, rfl⟩
  | labelled hlabel => exact .inl ⟨hlabel.ends.ink.1, rfl⟩
  | operation hne => exact .inr ⟨rfl, rfl, .inr ⟨rfl, hne⟩⟩
  | conditional hcondition =>
      obtain ⟨_, _, _, _, _, rfl⟩ := hcondition
      exact .inl ⟨List.cons_ne_nil _ _, rfl⟩

/-- The front with its head set in a column. -/
def Line.Front.setAt (f : Front) (column : Int) : Front :=
  if f.margin = [] then ⟨Text.spaces column, [], [], f.head⟩
  else ⟨[], f.margin, Text.spaces (column - f.margin.length), f.head⟩

namespace Line.Front

variable (f : Front) (column : Int)

@[simp] theorem margin_setAt : (f.setAt column).margin = f.margin := by
  unfold setAt
  split
  · next hmargin => rw [hmargin]
  · rfl

@[simp] theorem head_setAt : (f.setAt column).head = f.head := by
  unfold setAt
  split <;> rfl

theorem text_setAt : (f.setAt column).text = f.margin.padRight column ++ f.head := by
  unfold setAt
  split
  · next hmargin => simp [text, Text.padRight, hmargin]
  · simp [text, Text.padRight]

end Line.Front

namespace Settings

section front

variable {settings : Settings} {kind : Kind} {f : Front} {rest : Text}

theorem length_margin_lt_headStop (hvalid : settings.Valid) (hmargin : f.margin ≠ []) :
    (f.margin.length : Int) < settings.headStop kind f := by
  rw [headStop, if_pos hmargin]
  exact TabStops.lt_nextStop hvalid.width_pos _

theorem fits_setAt (hvalid : settings.Valid) (hfits : Fits kind f rest) (hhead : f.head ≠ [])
    {rest' : Text} (hrest : rest'.head?.all isBlank = true) :
    Fits kind (f.setAt (settings.headStop kind f)) rest' := by
  rcases hfits.margin_or_lead with ⟨hmargin, hlead⟩ | ⟨hmargin, hgap, hkind⟩
  · have hcolumn : (f.margin.length : Int) < settings.headStop kind f :=
      length_margin_lt_headStop hvalid hmargin
    rw [Front.setAt, if_neg hmargin]
    refine hfits.reset hhead rfl (fun _ => iff_of_true rfl hlead)
      (.inr ⟨hmargin, ?_, fun c hc => ?_⟩) (.inl hrest)
    · rw [Ne, ← List.length_eq_zero_iff, Text.length_spaces]
      omega
    · rw [List.eq_of_mem_replicate hc]
      rfl
  · have hset : f.setAt (settings.headStop kind f) =
        ⟨Text.spaces (settings.headStop kind f), f.margin, f.gap, f.head⟩ := by
      rw [Front.setAt, if_pos hmargin, hmargin, hgap]
    rw [hset]
    refine hfits.reset hhead (Text.allBlank_spaces _) (fun hother => ?_) (.inl rfl) (.inl hrest)
    obtain ⟨rfl, hlead⟩ := hkind.resolve_left hother
    rw [headStop, if_neg (by simp [hmargin]), if_neg hother]
    exact iff_of_false (spaces_first_ne_nil hvalid) hlead

end front

end Settings

/-! ## The layout, taken apart -/

namespace Layout

section cut

variable {conv : Convention} {continued : Bool} {text body tail rest : Text} {kind : Kind}
  {f : Front} {tailMarks : List Bool}

/-- What the layout puts behind a head. -/
def setOperand (body : Text) : Text :=
  if allBlank body then [] else ' ' :: body.trim

theorem setCode_eq (hhead : f.head ≠ []) (column : Int) (body : Text) :
    setCode f column body = (f.setAt column).text ++ setOperand body := by
  rw [setCode, if_neg hhead, Front.text_setAt, setOperand, List.append_assoc]

theorem setOperand_of_set {pad : Text} (hpad : allBlank pad = true) (body : Text) :
    setOperand (setOperand body ++ pad) = setOperand body := by
  cases hbody : allBlank body with
  | true => simp [setOperand, hbody, hpad]
  | false =>
      have htrim : Text.trim (' ' :: (body.trim ++ pad)) = body.trim := by
        rw [← List.singleton_append, Text.trim_lead rfl, Text.trim_append_of_allBlank hpad,
          Text.trim_trim]
      simp [setOperand, hbody, htrim]

/-- Behind its front the layout of a line goes on with a blank, or ends. -/
theorem exists_behind_front (hfits : Fits kind f rest) (hhead : f.head ≠ [])
    (column commentColumn : Int) (body tail : Text) :
    ∃ pad, allBlank pad = true ∧
      setFront f column commentColumn body tail =
        (f.setAt column).text ++ (setOperand body ++ pad) ∧
      (setOperand body ++ (pad ++ tail.trimRight)).head?.all isBlank = true := by
  obtain ⟨pad, hpad, hne, hfront⟩ := exists_setFront hfits column commentColumn body tail
  refine ⟨pad, hpad, ?_, ?_⟩
  · rw [hfront, setCode_eq hhead, List.append_assoc]
  · cases hbody : allBlank body with
    | false => simp [setOperand, hbody]
    | true =>
        rw [setOperand, if_pos hbody, List.nil_append]
        by_cases htail : tail = []
        · subst htail
          cases pad with
          | nil => rfl
          | cons c pad => exact Text.allBlank_iff.mp hpad c List.mem_cons_self
        · exact Text.head?_blank_of_allBlank (hne htail) hpad _

variable (h : IsCut conv continued text kind f body tail tailMarks)
include h

theorem exists_marked_set (hsharp : conv.Sharp)
    (hkept : movesBoundary conv (readText conv continued text) = false) (hhead : f.head ≠ [])
    {column : Int} (hcolumn : f.margin ≠ [] → (f.margin.length : Int) < column)
    (commentColumn : Int) :
    let laid := setFront f column commentColumn body tail ++ tail.trimRight
    ∃ marks rest', Marked conv continued laid marks ∧
      blanked marks laid = (f.setAt column).text ++ rest' ∧ rest'.head?.all isBlank = true := by
  intro laid
  obtain ⟨pad, hpad, hfront, hblank⟩ :=
    exists_behind_front h.fits hhead column commentColumn body tail
  have hlaid : laid =
      (f.setAt column).text ++ (setOperand body ++ (pad ++ tail.trimRight)) := by
    simp [laid, hfront]
  obtain ⟨marks, leftOpen, hscans⟩ : ∃ marks leftOpen,
      Scans conv (.entry conv continued)
        ((f.setAt column).text ++ (setOperand body ++ (pad ++ tail.trimRight)))
        (List.replicate (f.setAt column).text.length false ++ marks) leftOpen := by
    by_cases hkind : kind = .label
    · -- A torn label would have moved the boundary.
      have hfree : tears conv (readText conv continued text) = false := by
        rw [Bool.eq_false_iff]
        intro htears
        have hmoved := (boundary_of_label_tears h hsharp hkind htears hcolumn commentColumn).2
        rw [hkept] at hmoved
        cases hmoved
      obtain ⟨marks, _, hscans, _⟩ := scans_line h hsharp hfree hcolumn commentColumn
      rw [← h.entry_eq, hfront, List.length_append, List.replicate_add, List.append_assoc,
        List.append_assoc, List.append_assoc] at hscans
      exact ⟨_, _, hscans⟩
    · -- The front is plain, so it is code whatever the rest of the line has become.
      have hplain : ∀ c ∈ (f.setAt column).text, Comment.isPlain c = true ∨ isBlank c = true := by
        intro c hc
        rw [Front.text_setAt, List.mem_append] at hc
        refine plain_word h.fits hkind column ?_
        simp only [List.mem_append]
        exact hc.imp_right .inl
      obtain ⟨marks, leftOpen, hscans⟩ := Comment.exists_scans_code conv {}
        (lastOf none (f.setAt column).text) (setOperand body ++ (pad ++ tail.trimRight))
      rw [h.entry_eq]
      exact ⟨marks, leftOpen, (Walks.plain hsharp hplain).scans hscans⟩
  rw [hlaid]
  exact ⟨_, _, (Line.marked_of_scans hscans).1, Line.blanked_front _ _ marks,
    Comment.head?_blanked (.inl hblank)⟩

/-- The layout of a label with no head is the label, and then blanks up to the comment. -/
theorem exists_marked_label (hsharp : conv.Sharp) (hhead : f.head = []) {column : Int}
    (hcolumn : f.margin ≠ [] → (f.margin.length : Int) < column) (commentColumn : Int) :
    let laid := setFront f column commentColumn body tail ++ tail.trimRight
    ∃ pad marks, allBlank pad = true ∧ laid = (f.margin ++ pad) ++ tail.trimRight ∧
      Marked conv continued laid (List.replicate (f.margin ++ pad).length false ++ marks) ∧
      (tail.trimRight = [] ∨ marks.head? = some true) ∧
      (pad ++ blanked marks tail.trimRight).head?.all isBlank = true := by
  intro laid
  have hfree : tears conv (readText conv continued text) = false := by
    rw [Bool.eq_false_iff]
    exact fun htears => head_ne_nil_of_tears h htears hhead
  obtain ⟨marks, mark, hscans, htailMarks⟩ := scans_line h hsharp hfree hcolumn commentColumn
  obtain ⟨pad, hpad, hne, hfront⟩ := exists_setFront h.fits column commentColumn body tail
  rw [setCode, if_pos hhead] at hfront
  have hopens : tail.trimRight = [] ∨ marks.head? = some true := by
    by_cases htrim : tail.trimRight = []
    · exact .inl htrim
    · have hopen := h.opens.resolve_left fun hnil => htrim (by rw [hnil]; rfl)
      have hlength := hscans.length_marks
      cases marks with
      | nil =>
          rw [List.append_nil, List.length_replicate, List.length_append] at hlength
          exact absurd (List.eq_nil_of_length_eq_zero (by omega)) htrim
      | cons mark marks =>
          rw [htailMarks] at hopen
          exact .inr hopen
  refine ⟨pad, marks, hpad, by simp only [laid, hfront], ?_, hopens, ?_⟩
  · rw [← h.entry_eq] at hscans
    rw [← hfront]
    exact (Line.marked_of_scans hscans).1
  · cases pad with
    | cons c pad => exact Text.allBlank_iff.mp hpad c List.mem_cons_self
    | nil =>
        have htail : tail = [] := by
          by_contra htail
          exact hne htail rfl
        rw [List.nil_append, htail]
        exact Comment.head?_blanked (.inl rfl)

/-! ## The comment of the layout -/

/-- Behind the code of a line with a head there is nothing but comment. -/
theorem commentInk_eq (hhead : f.head ≠ []) :
    commentInk (readText conv continued text) = ink tail := by
  rw [boundary_of_cut h]
  exact Comment.ink_marked_of_quiet (h.quiet hhead)

theorem stops_tail (hsharp : conv.Sharp) : Text.Stops isBlank tail := by
  by_cases htail : tail = []
  · rw [htail]
    exact Text.stops_nil _
  · obtain ⟨c, more, rfl, hc⟩ := h.ink_tail hsharp htail
    exact Text.stops_cons.mpr hc

/-- A layout with the comments of the line is cut where the layout put them. -/
theorem cut_eq (hsharp : conv.Sharp) (hhead : f.head ≠ []) {front laid body' tail' : Text}
    {kind' : Kind} {f' : Front} {tailMarks' : List Bool}
    (h' : IsCut conv continued laid kind' f' body' tail' tailMarks') (hhead' : f'.head ≠ [])
    (hlaid : laid = front ++ tail.trimRight)
    (hkept : commentInk (readText conv continued laid) =
      commentInk (readText conv continued text)) :
    f'.text ++ body' = front ∧ tail' = tail.trimRight := by
  rw [commentInk_eq h hhead, commentInk_eq h' hhead', ← Text.ink_trimRight tail] at hkept
  exact Text.append_inj_of_ink (h'.text_eq.symm.trans hlaid) hkept (stops_tail h' hsharp)
    (stops_tail h hsharp).trimRight

end cut

end Layout

/-! ## The layout, laid out -/

namespace Settings

section again

variable {settings : Settings} {continued : Bool} {text laid body tail : Text} {kind : Kind}
  {f : Front} {tailMarks : List Bool} (hvalid : settings.Valid)
include hvalid

/-- Two lines that are cut alike have the same layout. -/
theorem lays_iff_of_cuts {text' body' tail' : Text} {f' : Front} {tailMarks' : List Bool}
    (h : IsCut (.ofStyle settings.style) continued text kind f body tail tailMarks)
    (h' : IsCut (.ofStyle settings.style) continued text' kind f' body' tail' tailMarks')
    (hmargin : f'.margin = f.margin) (hhead : f'.head = f.head)
    (hcode : setCode f (settings.headStop kind f) body' =
      setCode f (settings.headStop kind f) body)
    (htail : tail'.trimRight = tail.trimRight) :
    settings.Lays continued text laid ↔ settings.Lays continued text' laid := by
  have hsharp := Comment.sharp_ofStyle settings.style
  have hstop : settings.headStop kind f' = settings.headStop kind f := by
    simp [headStop, hmargin]
  have hset : setCode f' (settings.headStop kind f) body' =
      setCode f (settings.headStop kind f) body := by
    rw [← hcode]
    simp [setCode, hmargin, hhead]
  have hnil : tail' = [] ↔ tail = [] := by
    rw [← (Layout.stops_tail h' hsharp).trimRight_eq_nil_iff, htail,
      (Layout.stops_tail h hsharp).trimRight_eq_nil_iff]
  rw [lays_iff_of_cut h hvalid, lays_iff_of_cut h' hvalid, hstop, hhead, setFront, setFront, hset,
    htail]
  simp only [ne_eq, hnil]

theorem lays_self_of_cut {f' : Front} {body' : Text} {tailMarks' : List Bool}
    (h : IsCut (.ofStyle settings.style) continued text kind f body tail tailMarks)
    (h' : IsCut (.ofStyle settings.style) continued laid kind f' body' tail.trimRight tailMarks')
    (hmargin : f'.margin = f.margin) (hhead : f'.head = f.head)
    (hcode : setCode f (settings.headStop kind f) body' =
      setCode f (settings.headStop kind f) body)
    (hlays : settings.Lays continued text laid) : settings.Lays continued laid laid :=
  (lays_iff_of_cuts hvalid h h' hmargin hhead hcode (Text.trimRight_trimRight tail)).mp hlays

/-- A line that starts in its column and is indented as a whole stays unless a condition stands at
its margin. -/
theorem lays_self_iff_of_rigid {rest more : Text} {c : Char} {marks : List Bool}
    (h : Marked (.ofStyle settings.style) continued laid marks)
    (hcode : blanked marks laid = f.text ++ rest) (hfits : Fits kind f rest)
    (hrigid : isRigid (readText (.ofStyle settings.style) continued laid) = true)
    (htrim : laid.trimRight = laid) (hlaid : laid = f.lead ++ c :: more) (hc : isBlank c = false)
    (hlead : f.margin = [] → f.lead = Text.spaces (settings.headStop kind f) ∧
      settings.headStop kind f ≤ Text.maxRun) :
    settings.Lays continued laid laid ↔
      strandsCondition (readText (.ofStyle settings.style) continued laid) = false := by
  have hstrands : strandsCondition (readText (.ofStyle settings.style) continued laid) = false ↔
      ¬ (kind = .operation ∧ f.margin ≠ []) := by
    rw [strandsCondition, hrigid, Line.readText_of_fits h hcode hfits]
    by_cases hcondition : kind = .operation ∧ f.margin ≠ []
    · simp [Front.reading, hcondition]
    · simp [Front.reading, hcondition]
  have hink : allBlank (c :: more) = false := by simp [hc]
  have hmore : Text.trimRight (c :: more) = c :: more := by
    rw [hlaid, Text.trimRight_append, hink] at htrim
    exact List.append_cancel_left htrim
  have htext : laid.trim = c :: more := by
    rw [hlaid, Text.trim_lead (Layout.allBlank_lead hfits), Text.trim_cons_of_ink hc,
      ← Text.trimRight_cons_of_ink hc, hmore]
  rw [hstrands, (indents_of_fits h hcode hfits hrigid).lays_iff hvalid, htext,
    Text.trimRight_append, hink, hmore]
  simp only [Bool.false_eq_true, if_false]
  rcases hfits.margin_or_lead with ⟨hmargin, hnil⟩ | ⟨hmargin, _, hkind⟩
  · -- What stands at the margin is indented only if it is a condition.
    rw [hnil, List.nil_append] at hlaid
    by_cases hkind : kind = .operation
    · rw [if_pos hkind]
      refine iff_of_false (fun hsame => spaces_first_ne_nil hvalid ?_)
        (not_not_intro ⟨hkind, hmargin⟩)
      simpa [hlaid] using hsame.2
    · rw [if_neg hkind]
      exact iff_of_true ⟨by decide, hlaid.symm⟩ fun hcondition => hkind hcondition.1
  · -- The head is in the column that the line is indented to.
    obtain ⟨hspaces, hwide⟩ := hlead hmargin
    have hcolumn : (if kind = .operation then settings.stops.first else 0) =
        settings.headStop kind f := by
      rcases hkind with rfl | ⟨rfl, _⟩ <;> simp [headStop, hmargin]
    rw [hcolumn, ← hspaces]
    exact iff_of_true ⟨hwide, hlaid.symm⟩ fun hcondition => hcondition.2 hmargin

theorem lays_self_iff_of_head
    (h : IsCut (.ofStyle settings.style) continued text kind f body tail tailMarks)
    (hhead : f.head ≠ [])
    (hkept : movesBoundary (.ofStyle settings.style)
      (readText (.ofStyle settings.style) continued text) = false)
    (hlays : settings.Lays continued text laid) :
    settings.Lays continued laid laid ↔
      strandsCondition (readText (.ofStyle settings.style) continued laid) = false := by
  have hsharp := Comment.sharp_ofStyle settings.style
  have hcolumn : f.margin ≠ [] → (f.margin.length : Int) < settings.headStop kind f :=
    length_margin_lt_headStop hvalid
  have hsame := (Layout.boundary_iff_of_cut h hsharp hcolumn settings.commentColumn).mpr hkept
  obtain ⟨marks, rest, hmarked, hcode, hrest⟩ :=
    Layout.exists_marked_set h hsharp hkept hhead hcolumn settings.commentColumn
  obtain ⟨pad, hpad, hfront, _⟩ := Layout.exists_behind_front h.fits hhead
    (settings.headStop kind f) settings.commentColumn body tail
  obtain ⟨hwide, _, hlaid⟩ := (lays_iff_of_cut h hvalid).mp hlays
  rw [hlaid] at hmarked hcode hsame
  have hfits := fits_setAt hvalid h.fits hhead hrest
  cases hrigid : isRigid (readText (.ofStyle settings.style) continued laid) with
  | true =>
      obtain ⟨c, more, hmore, hc⟩ := Layout.exists_ink_front hfits
      have hstart : laid = (f.setAt (settings.headStop kind f)).lead ++
          c :: (more ++ (Layout.setOperand body ++ pad ++ tail.trimRight)) := by
        rw [← hlaid, hfront, Front.text, hmore]
        simp
      refine lays_self_iff_of_rigid hvalid hmarked hcode hfits hrigid (hlays.trimRight_eq hvalid)
        hstart hc fun hmargin => ?_
      rw [Front.margin_setAt] at hmargin
      have hstop : settings.headStop kind (f.setAt (settings.headStop kind f)) =
          settings.headStop kind f := by
        simp [headStop]
      rw [hstop]
      exact ⟨by rw [Front.setAt, if_pos hmargin], hwide hhead⟩
  | false =>
      obtain ⟨body', tail', tailMarks', h'⟩ := Line.exists_cut hmarked hcode hfits hrigid
      obtain ⟨hcut, rfl⟩ := Layout.cut_eq h hsharp hhead h' (by simpa using hhead) hlaid.symm
        hsame.1
      rw [hfront, List.append_cancel_left_eq] at hcut
      have hset : setCode f (settings.headStop kind f) body' =
          setCode f (settings.headStop kind f) body := by
        rw [Layout.setCode_eq hhead, Layout.setCode_eq hhead, hcut,
          Layout.setOperand_of_set hpad]
      exact iff_of_true
        (lays_self_of_cut hvalid h h' (Front.margin_setAt ..) (Front.head_setAt ..) hset hlays)
        (by simp [strandsCondition, hrigid])

theorem lays_self_of_token {label pad tail gap head more : Text} {marks : List Bool}
    (h : Marked (.ofStyle settings.style) continued laid
      (List.replicate (label ++ pad).length false ++ marks))
    (hlaid : laid = (label ++ pad) ++ tail) (hpad : allBlank pad = true)
    (hopens : tail = [] ∨ marks.head? = some true)
    (hrest : pad ++ blanked marks tail = gap ++ (head ++ more))
    (hfits : Fits .label ⟨[], label, gap, head⟩ more) (hhead : head ≠ [])
    (htrim : laid.trimRight = laid) :
    settings.Lays continued laid laid ∧
      strandsCondition (readText (.ofStyle settings.style) continued laid) = false := by
  have hcode : blanked (List.replicate (label ++ pad).length false ++ marks) laid =
      Front.text ⟨[], label, gap, head⟩ ++ more := by
    rw [hlaid, Line.blanked_front, List.append_assoc, hrest]
    simp [Front.text]
  have hrigid : isRigid (readText (.ofStyle settings.style) continued laid) = true := by
    rw [Line.isRigid_of_fits h hcode hfits hhead, Bool.not_eq_true', Bool.eq_false_iff,
      Line.behindComment_eq h, hlaid, Comment.behind_lead]
    intro hbehind
    have hquiet : allBlank (pad ++ blanked marks tail) = true := by
      rw [Text.allBlank_append, hpad, Bool.true_and]
      rcases hopens with rfl | hopen
      · exact Comment.allBlank_blanked marks rfl
      · rwa [Comment.behind_of_head hopen] at hbehind
    obtain ⟨c, head, rfl⟩ := List.exists_cons_of_ne_nil hhead
    have hc : isBlank c = false := hfits.head_ink c List.mem_cons_self
    simp [hrest, hc] at hquiet
  have hkind : (readText (.ofStyle settings.style) continued laid).kind ≠ .operation := by
    rw [kind_of_fits h hcode hfits]
    decide
  obtain ⟨_, hmargin⟩ := Layout.margin_ne_nil_of_label hfits
  obtain ⟨c, later, rfl⟩ := List.exists_cons_of_ne_nil hmargin
  have hc : isBlank c = false := Layout.isBlank_of_mem_margin hfits List.mem_cons_self
  have hstart : laid = [] ++ c :: (later ++ (pad ++ tail)) := by
    rw [hlaid]
    simp
  have hstrands := strandsCondition_of_kind hkind
  exact ⟨(lays_self_iff_of_rigid hvalid h hcode hfits hrigid htrim hstart hc
    fun hnil => absurd hnil hmargin).mpr hstrands, hstrands⟩

/-- A label with nothing behind it but comment.  The comment moves, and code that stands behind it
may become the head of the label. -/
theorem lays_self_of_bare_label
    (h : IsCut (.ofStyle settings.style) continued text kind f body tail tailMarks)
    (hhead : f.head = []) (hlays : settings.Lays continued text laid) :
    settings.Lays continued laid laid ∧
      strandsCondition (readText (.ofStyle settings.style) continued laid) = false := by
  have hsharp := Comment.sharp_ofStyle settings.style
  have hcolumn : f.margin ≠ [] → (f.margin.length : Int) < settings.headStop kind f :=
    length_margin_lt_headStop hvalid
  obtain ⟨pad, marks, hpad, hlaid, hmarked, hopens, hblank⟩ :=
    Layout.exists_marked_label h hsharp hhead hcolumn settings.commentColumn
  rw [((lays_iff_of_cut h hvalid).mp hlays).2.2] at hlaid hmarked
  obtain ⟨label, rfl, rfl, hold⟩ := h.fits.exists_label hhead
  have hlabel : Line.IsLabel label (pad ++ blanked marks tail.trimRight) :=
    ⟨hold.ends.reset fun _ => hblank, hold.not_directive⟩
  cases htoken : Line.tokenAfter? (label ++ (pad ++ blanked marks tail.trimRight))
      label.length with
  | none =>
      have h' : IsCut (.ofStyle settings.style) continued laid .label ⟨[], label, [], []⟩ pad
          tail.trimRight marks :=
        ⟨by simpa [Front.text] using hlaid, by simpa [Front.text] using hmarked, hopens,
          .label hlabel (Line.tokenAfter?_eq_none_iff.mp htoken), fun hne => absurd rfl hne⟩
      refine ⟨lays_self_of_cut hvalid h h' rfl rfl ?_ hlays, ?_⟩
      · rw [setCode, if_pos rfl, setCode, if_pos rfl]
      · rw [strandsCondition, h'.not_isRigid]
        rfl
  | some token =>
      obtain ⟨gap, head, more, hrest, hgap, hne, hink, hmore⟩ := Line.exists_of_tokenAfter? htoken
      rw [hrest] at hlabel
      exact lays_self_of_token hvalid hmarked hlaid hpad hopens hrest
        (.labelled hlabel hgap hne hink hmore) hne (hlays.trimRight_eq hvalid)

end again

end Settings

end AsmColumns
