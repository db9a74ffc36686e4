import AsmColumns.Proofs.Layout.Lays

/-!
# Indented lines, read again

A line that is indented as a whole keeps its text between other blanks.  Its comments stay where
they were in that text, and so does the code behind the first of them, which is what makes a line
rigid.  Its shape may change: what stood at the margin now stands behind blanks.  Only a line
without a shape that starts with a word gains one, and becomes an operation.
-/

namespace AsmColumns

open Comment (Convention blanked scan)
open Text (isBlank isWord allBlank)

/-! ## The code behind the first comment -/

namespace Line

/-- The code behind the start of the first comment. -/
def Reading.behindComment (r : Reading) : Text :=
  match r.commentStart? with
  | none => []
  | some start => (codeOf r.comments r.text).drop start

section behind

variable {conv : Convention} {continued : Bool} {text front tail lead z t rest : Text} {kind : Kind}
  {f : Front} {marks tailMarks : List Bool}

theorem behindComment_eq (h : Marked conv continued text marks) :
    (readText conv continued text).behindComment = Comment.behind marks text := by
  obtain ⟨front, tail, tailMarks, rfl, rfl, hopens⟩ := exists_split h.scans.length_marks
  rw [Reading.behindComment, h.commentStart? hopens, comments_readText, text_readText,
    h.codeOf_eq, blanked_front, Comment.behind_lead]
  by_cases htail : tail = []
  · have hmarks : tailMarks = [] := by
      have hlength := h.length_tailMarks
      rw [htail] at hlength
      exact List.eq_nil_of_length_eq_zero hlength
    simp [htail, hmarks, Comment.behind]
  · simp [htail, Comment.behind_of_head (hopens.resolve_left htail)]

theorem stop_eq (hfits : Fits kind f rest) (hhead : f.head ≠ []) :
    f.stop rest = (Text.trimRight (f.text ++ rest)).length := by
  have htext : Text.trimRight f.text = f.text := Layout.trimRight_front hfits f.lead
  rw [Front.stop, if_neg hhead, Text.trimRight_append]
  split
  · next hrest => simp [htext, Text.trimRight_of_allBlank hrest]
  · simp

/-- A line with a head is rigid if there is code behind its first comment. -/
theorem isRigid_of_fits (h : Marked conv continued text marks)
    (hcode : blanked marks text = f.text ++ rest) (hfits : Fits kind f rest)
    (hhead : f.head ≠ []) :
    Layout.isRigid (readText conv continued text) =
      !allBlank (readText conv continued text).behindComment := by
  obtain ⟨front, tail, tailMarks, rfl, rfl, hopens⟩ := exists_split h.scans.length_marks
  rw [behindComment_eq h, Comment.behind_lead, readText_of_fits h hcode hfits,
    isRigid_reading hfits, stop_eq hfits hhead, ← hcode, blanked_front]
  have hlength := h.length_tailMarks
  have hstart := h.head?_start hopens
  simp only [unsorted]
  cases hspans : (scan conv continued (front ++ tail)).spans.head? with
  | none =>
      have htail : tail = [] := by
        by_contra hne
        simp [hspans, hne] at hstart
      have hmarks : tailMarks = [] := by
        rw [htail] at hlength
        exact List.eq_nil_of_length_eq_zero hlength
      rw [htail, hmarks]
      rfl
  | some comment =>
      obtain ⟨htail, hfirst⟩ : tail ≠ [] ∧ comment.start = front.length := by
        rw [hspans, Option.map_some] at hstart
        split at hstart
        · cases hstart
        · next htail => exact ⟨htail, Option.some.inj hstart⟩
      rw [Comment.behind_of_head (hopens.resolve_left htail)]
      have hiff := @Text.length_trimRight_append_le_iff front (blanked tailMarks tail)
      rw [Option.any_some, hfirst, Bool.eq_iff_iff, decide_eq_true_eq, Bool.not_eq_true',
        ← Bool.not_eq_true, ← hiff, Nat.not_le]

/-- The code of a line is the given code between blanks. -/
structure IsFrame (conv : Convention) (continued : Bool) (text : Text) (marks : List Bool)
    (front core back : Text) : Prop where
  marked : Marked conv continued text marks
  code_eq : blanked marks text = front ++ (core ++ back)
  front_blank : allBlank front = true
  back_blank : allBlank back = true

/-- Blanks at the two ends of a line frame its code, and leave alone whether there is code behind
its first comment. -/
theorem exists_frame (hsharp : conv.Sharp) (hlead : allBlank lead = true) (hz : allBlank z = true)
    (hne : t ≠ []) (h : Marked conv continued t marks) :
    ∃ marks' front back,
      IsFrame conv continued (lead ++ (t ++ z)) marks' front (blanked marks t) back ∧
      front.length = lead.length ∧
      allBlank (readText conv continued (lead ++ (t ++ z))).behindComment =
        allBlank (readText conv continued t).behindComment := by
  have hlength := h.scans.length_marks
  obtain ⟨mark, htrail⟩ := h.scans.trail hsharp hz
  have h' := (marked_of_scans (htrail.lead_entry hsharp hlead)).1
  have hcode : blanked (List.replicate lead.length (continued && conv.isBlock) ++
      (marks ++ List.replicate z.length mark)) (lead ++ (t ++ z)) = _ :=
    Comment.blanked_append List.length_replicate
  rw [Comment.blanked_append hlength] at hcode
  have hframe := IsFrame.mk h' hcode (Comment.allBlank_blanked _ hlead)
    (Comment.allBlank_blanked _ hz)
  refine ⟨_, _, _, hframe, Comment.length_blanked .., ?_⟩
  rw [behindComment_eq h, behindComment_eq h']
  cases hentry : continued && conv.isBlock with
  | false => rw [Comment.behind_lead, Comment.allBlank_behind_trail hlength hz]
  | true =>
      -- The line starts in a comment, so all of its code is behind that.
      obtain ⟨c, more, rfl⟩ := List.exists_cons_of_ne_nil hne
      have hscans := h.scans
      rw [Comment.Mode.entry, if_pos hentry] at hscans
      have hhead := Comment.head?_marks_of_inside (Bool.and_eq_true_iff.mp hentry).2 hscans
      have hhead' : (List.replicate lead.length true ++
          (marks ++ List.replicate z.length mark)).head? = some true := by
        cases lead <;> simp [hhead, List.replicate_succ]
      rw [hentry] at hcode
      rw [Comment.behind_of_head hhead, Comment.behind_of_head hhead', hcode,
        Text.allBlank_append, Text.allBlank_append, Comment.allBlank_blanked _ hlead,
        Comment.allBlank_blanked _ hz, Bool.true_and, Bool.and_true]

end behind

/-! ## Shapes between other blanks -/

section shapes

variable {conv : Convention} {continued : Bool} {front core back front' back' rest : Text}
  {kind : Kind} {f : Front}

/-- A shape starts and ends with ink, so it is a shape of the code between the blanks. -/
theorem Fits.exists_core (h : Fits kind f rest) (hfront : allBlank front = true)
    (hback : allBlank back = true) (hcode : f.text ++ rest = front ++ (core ++ back)) :
    ∃ lead rest', f.lead = front ++ lead ∧ rest = rest' ++ back ∧
      core = (lead ++ (f.margin ++ (f.gap ++ f.head))) ++ rest' := by
  obtain ⟨c, more, hmore, hc⟩ := Layout.exists_ink_front h
  rw [Front.text, hmore, List.append_assoc, List.cons_append] at hcode
  obtain ⟨lead, hlead, hcore⟩ := Text.exists_of_lead hfront hc hcode
  rw [← List.cons_append, ← hmore, ← List.append_assoc] at hcore
  obtain ⟨rest', hrest, hcore⟩ :=
    Text.exists_of_tail hback (Layout.trimRight_front h lead) hcore.symm
  exact ⟨lead, rest', hlead, hrest, hcore⟩

theorem head?_trail (rest back : Text) (hback' : allBlank back' = true) :
    (rest ++ back').head?.all isBlank = true ∨ (rest ++ back').head? = (rest ++ back).head? := by
  cases rest with
  | cons c rest => exact .inr rfl
  | nil =>
      cases back' with
      | nil => exact .inl rfl
      | cons d back' => exact .inl (Text.allBlank_iff.mp hback' d List.mem_cons_self)

/-- A shape in one frame is a shape in another one, if it starts at the margin in both or in
neither of them. -/
theorem IsFrame.exists_fits {text text' : Text} {marks marks' : List Bool}
    (h : IsFrame conv continued text marks front core back)
    (h' : IsFrame conv continued text' marks' front' core back')
    (hcode : blanked marks text = f.text ++ rest) (hfits : Fits kind f rest)
    (hhead : f.head ≠ []) :
    ∃ lead rest', f.lead = front ++ lead ∧
      blanked marks' text' = Front.text ⟨front' ++ lead, f.margin, f.gap, f.head⟩ ++ rest' ∧
      ((kind ≠ .directive → (front' ++ lead = [] ↔ f.lead = [])) →
        Fits kind ⟨front' ++ lead, f.margin, f.gap, f.head⟩ rest') := by
  obtain ⟨lead, rest', hlead, hrest, hcore⟩ :=
    hfits.exists_core h.front_blank h.back_blank (hcode.symm.trans h.code_eq)
  refine ⟨lead, rest' ++ back', hlead, ?_, fun hstart => ?_⟩
  · rw [h'.code_eq, hcore]
    simp [Front.text]
  · have hblank : allBlank lead = true := by
      have hall := Layout.allBlank_lead hfits
      rw [hlead, Text.allBlank_append, Bool.and_eq_true] at hall
      exact hall.2
    apply hfits.reset hhead
    · rw [Text.allBlank_append, h'.front_blank, hblank]
      rfl
    · exact hstart
    · exact .inl rfl
    · rw [hrest]
      exact head?_trail rest' back h'.back_blank

/-- Code that has no shape in one frame has none in an indented one, unless it starts with a word at
the margin. -/
theorem Shapeless.reset (h : Shapeless (front ++ (core ++ back))) (hfront : allBlank front = true)
    (hback : allBlank back = true) (hfront' : allBlank front' = true)
    (hback' : allBlank back' = true) (hne : front' ≠ [])
    (hword : (front ++ (core ++ back)).head?.any isWord = false) :
    Shapeless (front' ++ (core ++ back')) := by
  rcases exists_fits (front' ++ (core ++ back')) with ⟨kind, f, rest, hcode, hfits⟩ | hshapeless
  · exfalso
    obtain ⟨lead, rest', hlead, hrest, hcore⟩ := hfits.exists_core hfront' hback' hcode.symm
    have hstart : f.lead ≠ [] := by
      rw [hlead]
      exact fun hnil => hne (List.append_eq_nil_iff.mp hnil).1
    have hhead : f.head ≠ [] := fun hnil => hstart (hfits.kind_of_head hnil).2.1
    have hblank : allBlank lead = true := by
      have hall := Layout.allBlank_lead hfits
      rw [hlead, Text.allBlank_append, Bool.and_eq_true] at hall
      exact hall.2
    have hcode' : front ++ (core ++ back) =
        Front.text ⟨front ++ lead, f.margin, f.gap, f.head⟩ ++ (rest' ++ back) := by
      rw [hcore]
      simp [Front.text]
    rw [hcode'] at h hword
    refine (hfits.reset hhead ?_ ?_ (.inl rfl) ?_).not_shapeless h
    · rw [Text.allBlank_append, hfront, hblank]
      rfl
    · intro hkind
      refine iff_of_false (fun hnil => ?_) hstart
      rw [hnil] at hword
      cases hfits with
      | directive => exact absurd rfl hkind
      | label | labelled | conditional => exact hstart rfl
      | operation _ _ hword' =>
          obtain ⟨c, word, rfl⟩ := List.exists_cons_of_ne_nil hword'.ne_nil
          have hc := hword'.all_isWord c List.mem_cons_self
          simp [Front.text, hc] at hword
    · rw [hrest]
      exact head?_trail rest' back' hback
  · exact hshapeless

/-- A condition is none any more in an indented frame, which leaves code without a shape. -/
theorem IsFrame.shapeless_of_condition {text text' : Text} {marks marks' : List Bool}
    (h : IsFrame conv continued text marks front core back)
    (h' : IsFrame conv continued text' marks' front' core back') (hne : front' ≠ [])
    (hcode : blanked marks text = f.text ++ rest) (hfits : Fits .operation f rest)
    (hmargin : f.margin ≠ []) :
    Shapeless (blanked marks' text') ∧ allBlank (blanked marks' text') = false := by
  obtain ⟨lead, rest', hlead, _, hcore⟩ :=
    hfits.exists_core h.front_blank h.back_blank (hcode.symm.trans h.code_eq)
  cases hfits with
  | operation => exact absurd rfl hmargin
  | conditional hcondition =>
      obtain ⟨_, _, _, _, _, rfl⟩ := hcondition
      obtain ⟨_, rfl⟩ := List.append_eq_nil_iff.mp hlead.symm
      rw [h'.code_eq, hcore]
      simp only [List.nil_append, List.cons_append]
      constructor
      · exact shapeless_of_lead hne h'.front_blank (by decide) (by decide) (by decide)
      · simp [show isBlank '(' = false by decide]

/-- Code without a shape that starts with a word at the margin is an operation in an indented
frame, and something that is no blank touches that. -/
theorem Shapeless.exists_fits (h : Shapeless (front ++ (core ++ back)))
    (hfront : allBlank front = true) (hback : allBlank back = true)
    (hfront' : allBlank front' = true) (hne : front' ≠ [])
    (hword : (front ++ (core ++ back)).head?.any isWord = true) (back' : Text) :
    ∃ word c more, isBlank c = false ∧
      front' ++ (core ++ back') = Front.text ⟨front', [], [], word⟩ ++ c :: more ∧
      Fits .operation ⟨front', [], [], word⟩ (c :: more) := by
  obtain ⟨word, c, more, hcode, hhead, hc⟩ := h.exists_head hword
  obtain rfl : front = [] := by
    cases front with
    | nil => rfl
    | cons d front =>
        have hd : isBlank d = true := Text.allBlank_iff.mp hfront d List.mem_cons_self
        have hd' : isWord d = true := hword
        simp [Text.isWord_of_isBlank hd] at hd'
  have htouch : Text.trimRight (word ++ [c]) = word ++ [c] :=
    Text.trimRight_append_of_ink (List.cons_ne_nil c []) (by simpa using hc) word
  have hcode' : (word ++ [c]) ++ more = core ++ back := by simpa using hcode.symm
  obtain ⟨more', _, hcore⟩ := Text.exists_of_tail hback htouch hcode'
  refine ⟨word, c, more' ++ back', hc, ?_, .operation hne hfront' (hhead.reset (.inr rfl))⟩
  rw [hcore]
  simp [Front.text]

end shapes

end Line
end AsmColumns
