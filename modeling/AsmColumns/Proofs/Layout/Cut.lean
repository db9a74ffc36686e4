import AsmColumns.Layout.Line
import AsmColumns.Proofs.Comment.Walk
import AsmColumns.Proofs.Line.Parts

/-!
# A line cut at its first comment

A line is set in columns if its first comment starts behind all of its code.  Such a line is cut
into its front, the rest of its code, and the comment with all that follows it.
-/

namespace AsmColumns
namespace Line

open Comment (Convention Scans Spells blanked marked scan)
open Text (isBlank isPad isWord allBlank)

/-! ## The end of the code -/

/-- Where the last part of a line ends. -/
def Front.stop (f : Front) (rest : Text) : Nat :=
  if f.head = [] then f.text.length else f.text.length + (Text.trimRight rest).length

section stop

variable {kind : Kind} {f : Front} {rest : Text} {base : Reading}

theorem Fits.exists_label (h : Fits kind f rest) (hhead : f.head = []) :
    ∃ label, kind = .label ∧ f = ⟨[], label, [], []⟩ ∧ IsLabel label rest := by
  cases h with
  | directive => cases hhead
  | label hlabel => exact ⟨_, rfl, rfl, hlabel⟩
  | labelled _ _ hne => exact absurd hhead hne
  | operation _ _ hword => exact absurd hhead hword.ne_nil
  | conditional _ _ _ hword => exact absurd hhead hword.ne_nil

theorem Fits.kind_of_head (h : Fits kind f rest) (hhead : f.head = []) :
    kind = .label ∧ f.lead = [] ∧ f.gap = [] := by
  obtain ⟨_, rfl, rfl, _⟩ := h.exists_label hhead
  exact ⟨rfl, rfl, rfl⟩

theorem exists_getLast?_code (base : Reading) (h : Fits kind f rest) :
    ∃ part last, (f.reading kind base (f.operand? rest)).code.getLast? = some (part, last) ∧
      last.stop = f.stop rest := by
  rw [code_reading base h, Front.parts]
  by_cases hhead : f.head = []
  · obtain ⟨rfl, hlead, hgap⟩ := h.kind_of_head hhead
    refine ⟨.label, ⟨0, f.margin.length⟩, ?_, ?_⟩
    · simp [Front.marginParts, Front.headParts, operand?_eq, hhead]
    · simp [Front.stop, hhead, Front.text, hlead, hgap, Span.stop]
  · by_cases hrest : allBlank rest
    · refine ⟨if f.head.head? = some '.' then .directive else .operation, f.headSpan, ?_, ?_⟩
      · simp [Front.headParts, operand?_eq, hhead, hrest]
      · simp [Front.stop, hhead, f.stop_headSpan, Text.trimRight_of_allBlank hrest]
    · refine ⟨.operand, ⟨f.text.length + (rest.takeWhile isBlank).length,
        (Text.trim rest).length⟩, ?_, ?_⟩
      · simp [Front.headParts, operand?_eq, hhead, hrest]
      · rw [Bool.not_eq_true] at hrest
        simp [Front.stop, hhead, Span.stop, Text.trimRight_eq_lead hrest, Nat.add_assoc]

theorem isRigid_of_last {r : Reading} {part : Part} {last : Span}
    (hkind : r.kind ≠ .unknown) (hlast : r.code.getLast? = some (part, last)) :
    Layout.isRigid r = r.comments.head?.any fun comment => comment.start < last.stop := by
  unfold Layout.isRigid
  rw [hlast]
  cases hr : r.kind with
  | unknown => exact absurd hr hkind
  | _ => rfl

theorem isRigid_reading (h : Fits kind f rest) :
    Layout.isRigid (f.reading kind base (f.operand? rest)) =
      base.comments.head?.any fun comment => comment.start < f.stop rest := by
  obtain ⟨part, last, hlast, hstop⟩ := exists_getLast?_code base h
  have hkind : (f.reading kind base (f.operand? rest)).kind ≠ .unknown := by
    rcases h.kind_eq with rfl | rfl | rfl <;> simp [Front.reading]
  rw [isRigid_of_last hkind hlast, hstop]
  rfl

end stop

/-! ## The cut -/

/-- A text with its marks, cut where the first of them is set. -/
theorem exists_split {marks : List Bool} {text : Text} (hlength : marks.length = text.length) :
    ∃ front tail tailMarks, text = front ++ tail ∧
      marks = List.replicate front.length false ++ tailMarks ∧
      (tail = [] ∨ tailMarks.head? = some true) := by
  induction text generalizing marks with
  | nil =>
      have hnil : marks = [] := List.eq_nil_of_length_eq_zero hlength
      exact ⟨[], [], [], rfl, hnil, .inl rfl⟩
  | cons c text ih =>
      cases marks with
      | nil => cases hlength
      | cons mark marks =>
          cases mark with
          | true => exact ⟨[], c :: text, true :: marks, rfl, rfl, .inr rfl⟩
          | false =>
              obtain ⟨front, tail, tailMarks, rfl, rfl, hopens⟩ := ih (by simpa using hlength)
              exact ⟨c :: front, tail, tailMarks, rfl, by simp [List.replicate_succ], hopens⟩

section split

variable {conv : Convention} {continued : Bool} {front tail : Text} {tailMarks : List Bool}
  (h : Marked conv continued (front ++ tail) (List.replicate front.length false ++ tailMarks))
include h

theorem Marked.length_tailMarks : tailMarks.length = tail.length := by
  have hlength := h.scans.length_marks
  simp only [List.length_append, List.length_replicate] at hlength
  omega

theorem Marked.head?_start (hopens : tail = [] ∨ tailMarks.head? = some true) :
    (scan conv continued (front ++ tail)).spans.head?.map Span.start =
      if tail = [] then none else some front.length := by
  have hlength := h.length_tailMarks
  have hspells := h.spells
  cases tailMarks with
  | nil =>
      obtain rfl : tail = [] := List.eq_nil_of_length_eq_zero hlength.symm
      rw [List.append_nil] at hspells
      rw [hspells.eq_nil_of_bare]
      rfl
  | cons mark marks =>
      have hne : tail ≠ [] := by
        rintro rfl
        cases hlength
      obtain rfl : mark = true := by simpa using hopens.resolve_left hne
      rw [if_neg hne]
      simpa using hspells.head_start

theorem Marked.commentStart? (hopens : tail = [] ∨ tailMarks.head? = some true) :
    (readText conv continued (front ++ tail)).commentStart? =
      if tail = [] then none else some front.length := by
  rw [Reading.commentStart?, comments_readText]
  exact h.head?_start hopens

omit h in
theorem blanked_front (front tail : Text) (tailMarks : List Bool) :
    blanked (List.replicate front.length false ++ tailMarks) (front ++ tail) =
      front ++ blanked tailMarks tail := by
  rw [Comment.blanked_append List.length_replicate, Comment.blanked_replicate_false]

end split

/-- A line whose first comment starts behind its code: the front, the rest of the code, and the
comment with what follows it. -/
structure IsCut (conv : Convention) (continued : Bool) (text : Text) (kind : Kind) (f : Front)
    (body tail : Text) (tailMarks : List Bool) : Prop where
  text_eq : text = (f.text ++ body) ++ tail
  marked : Marked conv continued text
    (List.replicate (f.text ++ body).length false ++ tailMarks)
  opens : tail = [] ∨ tailMarks.head? = some true
  fits : Fits kind f (body ++ blanked tailMarks tail)
  quiet : f.head ≠ [] → allBlank (blanked tailMarks tail)

section cut

variable {conv : Convention} {continued : Bool} {text body tail rest : Text} {kind : Kind}
  {f : Front} {marks tailMarks : List Bool}

theorem exists_cut (h : Marked conv continued text marks)
    (hcode : blanked marks text = f.text ++ rest) (hfits : Fits kind f rest)
    (hrigid : Layout.isRigid (readText conv continued text) = false) :
    ∃ body tail tailMarks, IsCut conv continued text kind f body tail tailMarks := by
  rw [readText_of_fits h hcode hfits, isRigid_reading hfits] at hrigid
  obtain ⟨front, tail, tailMarks, rfl, rfl, hopens⟩ := exists_split h.scans.length_marks
  have hstart := h.head?_start hopens
  rw [blanked_front] at hcode
  have hstop : tail = [] ∨ f.stop rest ≤ front.length := by
    by_cases hnil : tail = []
    · exact .inl hnil
    · refine .inr ?_
      rw [if_neg hnil] at hstart
      obtain ⟨comment, hcomment, hstart⟩ := Option.map_eq_some_iff.mp hstart
      have hle : ¬ comment.start < f.stop rest := by
        simpa [unsorted, hcomment] using hrigid
      omega
  have hblank : tail = [] → blanked tailMarks tail = [] := by
    rintro rfl
    rw [List.eq_nil_of_length_eq_zero h.length_tailMarks]
    rfl
  obtain ⟨body, rfl, rfl⟩ : ∃ body, front = f.text ++ body ∧
      rest = body ++ blanked tailMarks tail := by
    rcases List.append_eq_append_iff.mp hcode with ⟨more, htext, hmore⟩ | ⟨body, hbody, hrest⟩
    · have hnil : more = [] := by
        rcases hstop with htail | hstop
        · rw [hblank htail] at hmore
          exact (List.append_eq_nil_iff.mp hmore.symm).1
        · have hlength := congrArg List.length htext
          have hle : f.text.length ≤ f.stop rest := by
            unfold Front.stop
            split <;> omega
          rw [List.length_append] at hlength
          exact List.eq_nil_of_length_eq_zero (by omega)
      subst hnil
      exact ⟨[], by simpa using htext.symm, by simpa using hmore.symm⟩
    · exact ⟨body, hbody, hrest⟩
  refine ⟨body, tail, tailMarks, rfl, h, hopens, hfits, fun hhead => ?_⟩
  rcases hstop with htail | hstop
  · rw [hblank htail]
    rfl
  · rw [Front.stop, if_neg hhead, List.length_append] at hstop
    exact (Text.length_trimRight_append_le_iff (s := body)).mp (by omega)

theorem isRigid_of_bare {r : Reading} (h : r.Bare) : Layout.isRigid r = true := by
  unfold Layout.isRigid
  rw [h.code_eq]
  cases r.kind <;> rfl

theorem exists_cut_of_not_isRigid
    (hrigid : Layout.isRigid (readText conv continued text) = false) :
    ∃ kind f body tail tailMarks, IsCut conv continued text kind f body tail tailMarks := by
  obtain ⟨marks, h, hblank | ⟨hink, hshapeless⟩ | ⟨kind, f, rest, hcode, hfits⟩⟩ :=
    readText_cases conv continued text
  · simp [isRigid_of_bare (readText_of_allBlank h hblank).1] at hrigid
  · simp [readText_of_shapeless h hink hshapeless, Layout.isRigid] at hrigid
  · exact ⟨kind, f, exists_cut h hcode hfits hrigid⟩

namespace IsCut

variable (h : IsCut conv continued text kind f body tail tailMarks)
include h

theorem code_eq :
    blanked (List.replicate (f.text ++ body).length false ++ tailMarks) text =
      f.text ++ (body ++ blanked tailMarks tail) := by
  have hmarked := h.marked
  rw [h.text_eq] at hmarked ⊢
  rw [blanked_front, List.append_assoc]

theorem readText_eq :
    readText conv continued text = f.reading kind (unsorted conv continued text)
      (f.operand? (body ++ blanked tailMarks tail)) :=
  readText_of_fits h.marked h.code_eq h.fits

theorem kind_eq : (readText conv continued text).kind = kind := by
  rw [h.readText_eq]
  rfl

theorem commentStart? :
    (readText conv continued text).commentStart? =
      if tail = [] then none else some (f.text ++ body).length := by
  have hmarked := h.marked
  rw [h.text_eq] at hmarked ⊢
  exact hmarked.commentStart? h.opens

theorem operand?_eq :
    f.operand? (body ++ blanked tailMarks tail) =
      if f.head = [] ∨ allBlank body then none
      else some ⟨f.text.length + (body.takeWhile isBlank).length, (Text.trim body).length⟩ := by
  rw [Line.operand?_eq]
  by_cases hhead : f.head = []
  · simp [hhead]
  · have hquiet := h.quiet hhead
    cases hbody : allBlank body with
    | true => simp [hbody, hquiet]
    | false =>
        rw [Text.takeWhile_append_of_ink hbody, Text.trim_append_of_allBlank hquiet]
        simp [hhead, hbody, hquiet]

theorem not_isRigid : Layout.isRigid (readText conv continued text) = false := by
  have hstop : f.stop (body ++ blanked tailMarks tail) ≤ (f.text ++ body).length := by
    rw [List.length_append, Front.stop]
    split
    · omega
    · rename_i hhead
      have := Text.length_trimRight_le body
      rw [Text.trimRight_append, if_pos (h.quiet hhead)]
      omega
  have hstart := h.commentStart?
  rw [Reading.commentStart?, comments_readText] at hstart
  rw [h.readText_eq, isRigid_reading h.fits, Bool.eq_false_iff]
  intro hany
  obtain ⟨comment, hcomment, hlt⟩ := (Option.any_eq_true _ _).mp hany
  rw [show (scan conv continued text).spans.head? = some comment from hcomment] at hstart
  split at hstart
  · cases hstart
  · rw [Option.map_some, Option.some.injEq] at hstart
    rw [decide_eq_true_eq] at hlt
    omega

/-- A line that is cut starts in its code. -/
theorem entry_eq : Comment.Mode.entry conv continued = .code {} none := by
  unfold Comment.Mode.entry
  split
  · rename_i hinside
    have hscans := h.marked.scans
    rw [Comment.Mode.entry, if_pos hinside, h.text_eq, List.append_assoc] at hscans
    cases hfront : f.text with
    | nil =>
        have hink := h.fits.not_allBlank
        rw [hfront] at hink
        cases hink
    | cons c more =>
        rw [hfront, List.cons_append, List.cons_append, List.length_cons,
          List.replicate_succ] at hscans
        have hhead := Comment.head?_marks_of_inside (Bool.and_eq_true_iff.mp hinside).2 hscans
        cases hhead
  · rfl

/-- The walk over the code of a cut line, and the scan of what follows it. -/
theorem exists_walks (hsharp : conv.Sharp) :
    ∃ last, Comment.Walks conv {} none (f.text ++ body) tail last ∧
      Scans conv (.code last (Comment.lastOf none (f.text ++ body))) tail tailMarks
        (scan conv continued text).leftOpen := by
  have hscans := h.marked.scans
  rw [h.entry_eq] at hscans
  generalize (scan conv continued text).leftOpen = leftOpen at hscans ⊢
  rw [h.text_eq] at hscans
  exact hscans.walks hsharp.mark_ne

theorem head?_blanked_tail : (blanked tailMarks tail).head?.all isBlank = true := by
  apply Comment.head?_blanked
  rcases h.opens with rfl | hmarks
  · exact .inl rfl
  · exact .inr hmarks

theorem prefix_tail (hsharp : conv.Sharp) : tail = [] ∨ conv.mark <+: tail := by
  obtain ⟨last, _, hscans⟩ := h.exists_walks hsharp
  exact h.opens.imp id (Comment.prefix_of_scans hscans)

theorem ink_tail (hsharp : conv.Sharp) (htail : tail ≠ []) :
    ∃ c more, tail = c :: more ∧ isBlank c = false := by
  obtain ⟨more, rfl⟩ := (h.prefix_tail hsharp).resolve_left htail
  obtain ⟨c, mark, hmark⟩ := List.exists_cons_of_ne_nil hsharp.mark_ne
  exact ⟨c, mark ++ more, by simp [hmark], hsharp.mark_ink c (by simp [hmark])⟩

end IsCut

end cut

end Line
end AsmColumns
