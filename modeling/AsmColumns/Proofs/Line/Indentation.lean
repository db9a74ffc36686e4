import AsmColumns.Proofs.Layout.Blanks

/-!
# A line with another indentation

A line is some blanks and the text behind them.  With other blanks in front, the scan finds the same
comments in that text and the code between them is the same, so a line of comment, a blank line and
a directive are what they were.  An operation is what it was as long as it is indented at all.  Two
lines change: a condition is none any more once it has left the margin, which leaves a line without
a shape, and a line without a shape may start with a word, which is an operation once it is
indented.

`Reindented` says what can become of a reading.  The parts of a line are compared by their texts,
because their spans move with the line.
-/

namespace AsmColumns
namespace Line

open Comment (Convention blanked)
open Text (isBlank isWord allBlank)

/-! ## The texts of the parts -/

/-- The text of a part, if the line has the part. -/
def Reading.textOf (r : Reading) : Part → Option Text
  | .label => r.label.map (·.of r.text)
  | .condition => r.condition.map (·.of r.text)
  | .directive => r.directive.map (·.of r.text)
  | .operation => r.operation.map (·.of r.text)
  | .operand => r.operand.map (·.of r.text)

theorem Reading.Bare.textOf_eq {r : Reading} (h : r.Bare) (part : Part) : r.textOf part = none := by
  cases part with
  | label => rw [Reading.textOf, h.label, Option.map_none]
  | condition => rw [Reading.textOf, h.condition, Option.map_none]
  | directive => rw [Reading.textOf, h.directive, Option.map_none]
  | operation => rw [Reading.textOf, h.operation, Option.map_none]
  | operand => rw [Reading.textOf, h.operand, Option.map_none]

theorem bare_of_kind {conv : Convention} {continued : Bool} {text : Text}
    (hkind : (readText conv continued text).kind = .comment ∨
      (readText conv continued text).kind = .blank ∨
      (readText conv continued text).kind = .unknown) :
    (readText conv continued text).Bare := by
  obtain ⟨marks, h, hblank | ⟨hcode, hshapeless⟩ | ⟨kind, f, rest, hcode, hfits⟩⟩ :=
    readText_cases conv continued text
  · exact (readText_of_allBlank h hblank).1
  · rw [readText_of_shapeless h hcode hshapeless]
    exact ⟨rfl, rfl, rfl, rfl, rfl⟩
  · rw [readText_of_fits h hcode hfits] at hkind
    rcases hfits.kind_eq with rfl | rfl | rfl <;> simp [Front.reading] at hkind

theorem of_behind (lead t : Text) (start length : Nat) :
    Span.of ⟨lead.length + start, length⟩ (lead ++ t) = Span.of ⟨start, length⟩ t := by
  simp only [Span.of, Span.stop, Text.slice, List.drop_length_add_append]
  congr 1
  omega

/-- What can become of the reading of a line whose indentation changes. -/
inductive Reindented (old new : Reading) : Prop where
  | kept :
      old.condition = none → new.kind = old.kind →
      (old.kind = .comment → new.isDoc = old.isDoc ∧ new.depth = old.depth) →
      (∀ part, new.textOf part = old.textOf part) → Reindented old new
  | stranded :
      old.kind = .operation → old.condition ≠ none → new.kind = .unknown →
      (∀ part, new.textOf part = none) → Reindented old new
  | gained :
      old.kind = .unknown → new.kind = .operation → Reindented old new

/-- A line keeps its column. -/
theorem Reindented.column_eq {conv : Convention} {stops : TabStops} {commentColumn : Int}
    {old new : Reading} (h : Reindented old new) (hold : old.degraded = false)
    (hnew : new.degraded = false) :
    (Layout.Page.whole conv stops commentColumn).column new =
      (Layout.Page.whole conv stops commentColumn).column old := by
  rw [Layout.column_whole, Layout.column_whole, hold, hnew]
  cases h with
  | kept _ hkind hcomment _ =>
      rw [hkind]
      cases hcase : old.kind with
      | comment =>
          obtain ⟨hdoc, hdepth⟩ := hcomment hcase
          rw [hdoc, hdepth]
      | label | directive | operation | blank | unknown => rfl
  | stranded hkind _ hunknown _ => rw [hkind, hunknown]
  | gained hunknown hkind => rw [hkind, hunknown]

/-- A line that has a kind keeps it with all its parts, unless it has a condition. -/
theorem Reindented.same_iff {old new : Reading} (h : Reindented old new)
    (hkind : old.kind ≠ .unknown) :
    ((new.kind = old.kind ∧ ∀ part, new.textOf part = old.textOf part) ↔ old.condition = none) ∧
      (old.condition ≠ none → new.kind = .unknown ∧ ∀ part, new.textOf part = none) := by
  cases h with
  | kept hnone hsame _ hparts =>
      constructor
      · exact iff_of_true ⟨hsame, hparts⟩ hnone
      · exact fun hsome => absurd hnone hsome
  | stranded hold hsome hnew hparts =>
      constructor
      · apply iff_of_false
        · intro hsame
          rw [hold, hnew] at hsame
          cases hsame.1
        · exact hsome
      · exact fun _ => ⟨hnew, hparts⟩
  | gained hunknown _ => exact absurd hunknown hkind

/-! ## Frames -/

section frame

variable {conv : Convention} {continued : Bool} {kind : Kind} {f : Front}
  {lead lead' t text text' front front' core rest : Text} {marks marks' : List Bool}

theorem exists_frame_lead (hsharp : conv.Sharp) (hlead : allBlank lead = true)
    (h : Marked conv continued t marks) :
    ∃ marks' front, IsFrame conv continued (lead ++ t) marks' front (blanked marks t) [] ∧
      front.length = lead.length := by
  have hscans := h.scans.lead_entry hsharp hlead
  have hcode : blanked (List.replicate lead.length (continued && conv.isBlock) ++ marks)
      (lead ++ t) = _ := Comment.blanked_append List.length_replicate
  rw [← List.append_nil (blanked marks t)] at hcode
  exact ⟨_, _, ⟨(marked_of_scans hscans).1, hcode, Comment.allBlank_blanked _ hlead, rfl⟩,
    Comment.length_blanked ..⟩

/-- A front and the code behind it, moved to another frame. -/
theorem IsFrame.exists_shifted (h : IsFrame conv continued text marks front core [])
    (h' : IsFrame conv continued text' marks' front' core [])
    (hcode : blanked marks text = f.text ++ rest) (hfits : Fits kind f rest) :
    ∃ gap, f.lead = front ++ gap ∧ allBlank gap = true ∧
      blanked marks' text' = Front.text ⟨front' ++ gap, f.margin, f.gap, f.head⟩ ++ rest := by
  obtain ⟨gap, rest', hlead, hrest, hcore⟩ :=
    hfits.exists_core h.front_blank h.back_blank (hcode.symm.trans h.code_eq)
  have hblank := Layout.allBlank_lead hfits
  rw [hlead, Text.allBlank_append, Bool.and_eq_true] at hblank
  refine ⟨gap, hlead, hblank.2, ?_⟩
  rw [h'.code_eq, hcore, hrest]
  simp [Front.text]

/-- The texts of the parts do not depend on the blanks before a line that has nothing at its
margin. -/
theorem textOf_reading {gap between head : Text} {base base' : Reading}
    (hlength : front.length = lead.length) (hbase : base.text = lead ++ t)
    (hbase' : base'.text = t) (hkind : kind ≠ .label) (part : Part) :
    (Front.reading ⟨front ++ gap, [], between, head⟩ kind base
        (Front.operand? ⟨front ++ gap, [], between, head⟩ rest)).textOf part =
      (Front.reading ⟨gap, [], between, head⟩ kind base'
        (Front.operand? ⟨gap, [], between, head⟩ rest)).textOf part := by
  have hhead : Span.of (Front.headSpan ⟨front ++ gap, [], between, head⟩) (lead ++ t) =
      Span.of (Front.headSpan ⟨gap, [], between, head⟩) t := by
    have hspan := of_behind lead t (gap.length + between.length) head.length
    simpa [Front.headSpan, hlength, Nat.add_assoc] using hspan
  cases part with
  | label => simp [Reading.textOf, Front.reading, hkind]
  | condition => simp [Reading.textOf, Front.reading]
  | directive =>
      simp only [Reading.textOf, Front.reading, hbase, hbase']
      split
      · exact congrArg some hhead
      · rfl
  | operation =>
      simp only [Reading.textOf, Front.reading, hbase, hbase']
      split
      · rfl
      · exact congrArg some hhead
  | operand =>
      have hoperand : ∀ start length : Nat,
          Span.of ⟨(Front.text ⟨front ++ gap, [], between, head⟩).length + start, length⟩
              (lead ++ t) =
            Span.of ⟨(Front.text ⟨gap, [], between, head⟩).length + start, length⟩ t := by
        intro start length
        have hspan := of_behind lead t
          ((Front.text ⟨gap, [], between, head⟩).length + start) length
        simpa [Front.text, hlength, Nat.add_assoc] using hspan
      simp only [Reading.textOf, Front.reading, hbase, hbase', operand?_eq]
      split
      · rfl
      · exact congrArg some (hoperand _ _)

section moved

variable (h : IsFrame conv continued (lead ++ t) marks front core [])
  (h' : IsFrame conv continued (lead' ++ t) marks' front' core [])
include h h'

theorem reindented_of_moved {gap between head : Text}
    (hlength : front.length = lead.length) (hlength' : front'.length = lead'.length)
    (hcode : blanked marks (lead ++ t) = Front.text ⟨front ++ gap, [], between, head⟩ ++ rest)
    (hcode' : blanked marks' (lead' ++ t) = Front.text ⟨front' ++ gap, [], between, head⟩ ++ rest)
    (hfits : Fits kind ⟨front ++ gap, [], between, head⟩ rest)
    (hfits' : Fits kind ⟨front' ++ gap, [], between, head⟩ rest) (hkind : kind ≠ .label) :
    Reindented (readText conv continued (lead ++ t)) (readText conv continued (lead' ++ t)) := by
  rw [readText_of_fits h.marked hcode hfits, readText_of_fits h'.marked hcode' hfits']
  apply Reindented.kept
  · simp [Front.reading]
  · rfl
  · intro hcomment
    obtain rfl : kind = .comment := hcomment
    rcases hfits.kind_eq with hother | hother | hother <;> cases hother
  · intro part
    have hbase : (unsorted conv continued t).text = t := rfl
    exact (textOf_reading hlength' rfl hbase hkind part).trans
      (textOf_reading hlength rfl hbase hkind part).symm

theorem reindented_of_fits (hlength : front.length = lead.length)
    (hlength' : front'.length = lead'.length)
    (hcode : blanked marks (lead ++ t) = f.text ++ rest) (hfits : Fits kind f rest)
    (hlabel : kind = .label → lead = [] → lead' = [])
    (hindent : kind = .operation → front' ≠ []) :
    Reindented (readText conv continued (lead ++ t)) (readText conv continued (lead' ++ t)) := by
  have hreading := readText_of_fits h.marked hcode hfits
  obtain ⟨gap, hgap, hblank, hcode'⟩ := h.exists_shifted h' hcode hfits
  have hlead : allBlank (front' ++ gap) = true := by
    rw [Text.allBlank_append, h'.front_blank, hblank]
    rfl
  cases hfits with
  | @directive _ _ _ hlead₀ hword hcolon =>
      obtain rfl := hgap
      exact reindented_of_moved h h' hlength hlength' hcode hcode'
        (.directive hlead₀ hword hcolon) (.directive hlead hword hcolon) (by decide)
  | label | labelled =>
      -- The label stands at the margin, where it stays.
      obtain ⟨rfl, -⟩ := List.append_eq_nil_iff.mp hgap.symm
      obtain rfl := List.eq_nil_of_length_eq_zero hlength.symm
      obtain rfl := hlabel rfl rfl
      exact .kept (by rw [hreading]; simp [Front.reading]) rfl (fun _ => ⟨rfl, rfl⟩) fun _ => rfl
  | @operation _ _ _ hne hlead₀ hword =>
      obtain rfl := hgap
      have hne' : front' ++ gap ≠ [] := List.append_ne_nil_of_left_ne_nil (hindent rfl) gap
      exact reindented_of_moved h h' hlength hlength' hcode hcode'
        (.operation hne hlead₀ hword) (.operation hne' hlead hword) (by decide)
  | @conditional condition _ _ _ hcondition hne hblank₀ hword =>
      have hmargin : condition ≠ [] := by
        obtain ⟨_, _, _, _, _, rfl⟩ := hcondition
        exact List.cons_ne_nil _ _
      obtain ⟨hshapeless, hink⟩ := h.shapeless_of_condition h' (hindent rfl) hcode
        (.conditional hcondition hne hblank₀ hword) hmargin
      have hunknown : (readText conv continued (lead' ++ t)).kind = .unknown := by
        rw [readText_of_shapeless h'.marked hink hshapeless]
      apply Reindented.stranded
      · rw [hreading]
        rfl
      · rw [hreading]
        simp [Front.reading, hmargin]
      · exact hunknown
      · exact (bare_of_kind (.inr (.inr hunknown))).textOf_eq

theorem reindented_of_shapeless (hne : front' ≠ [])
    (hink : allBlank (blanked marks (lead ++ t)) = false)
    (hshapeless : Shapeless (blanked marks (lead ++ t))) :
    Reindented (readText conv continued (lead ++ t)) (readText conv continued (lead' ++ t)) := by
  have hold : (readText conv continued (lead ++ t)).kind = .unknown := by
    rw [readText_of_shapeless h.marked hink hshapeless]
  rw [h.code_eq] at hshapeless hink
  cases hword : (front ++ (core ++ [])).head?.any isWord with
  | true =>
      obtain ⟨word, c, more, -, hcode', hfits'⟩ := hshapeless.exists_fits h.front_blank
        Text.allBlank_nil h'.front_blank hne hword []
      apply Reindented.gained hold
      rw [readText_of_fits h'.marked (h'.code_eq.trans hcode') hfits']
      rfl
  | false =>
      have hshapeless' := hshapeless.reset h.front_blank Text.allBlank_nil h'.front_blank
        Text.allBlank_nil hne hword
      have hink' : allBlank (blanked marks' (lead' ++ t)) = false := by
        rw [Text.allBlank_append, h.front_blank, Bool.true_and] at hink
        rw [h'.code_eq, Text.allBlank_append, hink, Bool.and_false]
      have hnew : (readText conv continued (lead' ++ t)).kind = .unknown := by
        rw [← h'.code_eq] at hshapeless'
        rw [readText_of_shapeless h'.marked hink' hshapeless']
      have hbare := bare_of_kind (.inr (.inr hold))
      have hbare' := bare_of_kind (.inr (.inr hnew))
      apply Reindented.kept hbare.condition (hnew.trans hold.symm)
      · intro hcomment
        rw [hold] at hcomment
        cases hcomment
      · intro part
        rw [hbare.textOf_eq, hbare'.textOf_eq]

end moved

end frame

/-! ## Lines -/

section lines

variable {conv : Convention} {continued : Bool} {lead lead' t : Text} (hsharp : conv.Sharp)
  (hlead : allBlank lead = true) (hlead' : allBlank lead' = true)
include hsharp hlead hlead'

theorem insideBlock_lead :
    insideBlock conv continued (lead' ++ t) = insideBlock conv continued (lead ++ t) := by
  have hold : insideBlock conv continued ([] ++ (lead ++ t).trim) = _ :=
    insideBlock_trim hsharp Text.allBlank_nil (lead ++ t)
  have hnew : insideBlock conv continued ([] ++ (lead' ++ t).trim) = _ :=
    insideBlock_trim hsharp Text.allBlank_nil (lead' ++ t)
  rw [← hold, ← hnew, Text.trim_lead hlead, Text.trim_lead hlead']

theorem kind_lead_of_quiet
    (hkind : (readText conv continued (lead ++ t)).kind = .comment ∨
      (readText conv continued (lead ++ t)).kind = .blank) :
    (readText conv continued (lead' ++ t)).kind = (readText conv continued (lead ++ t)).kind := by
  have hinside : insideBlock conv continued (lead' ++ t) = insideBlock conv continued (lead ++ t) :=
    insideBlock_lead hsharp hlead hlead'
  cases hink : allBlank t with
  | true =>
      have hold : allBlank (lead ++ t) = true := by
        rw [Text.allBlank_append, hlead, hink]
        rfl
      have hnew : allBlank (lead' ++ t) = true := by
        rw [Text.allBlank_append, hlead', hink]
        rfl
      cases hcase : insideBlock conv continued (lead ++ t) with
      | true =>
          rw [hcase] at hinside
          simp [readText, hcase, hinside]
      | false =>
          rw [hcase] at hinside
          rw [kind_of_allBlank hsharp hold hcase, kind_of_allBlank hsharp hnew hinside]
  | false =>
      obtain ⟨marks, h⟩ := exists_marked conv continued t
      obtain ⟨_, _, hframe, -⟩ := exists_frame_lead hsharp hlead h
      obtain ⟨_, _, hframe', -⟩ := exists_frame_lead hsharp hlead' h
      have hold : allBlank (lead ++ t) = false := by
        rw [Text.allBlank_append, hink, Bool.and_false]
      have hnew : allBlank (lead' ++ t) = false := by
        rw [Text.allBlank_append, hink, Bool.and_false]
      have hcomment : (readText conv continued (lead ++ t)).kind = .comment := by
        apply hkind.resolve_right
        intro hblank
        rw [allBlank_of_kind hblank] at hold
        cases hold
      have hcode := allBlank_of_comment hframe.marked hcomment
      rw [hframe.code_eq, Text.allBlank_append, hframe.front_blank, Bool.true_and] at hcode
      rw [hcomment]
      apply comment_of_ink hnew hframe'.marked
      rw [hframe'.code_eq, Text.allBlank_append, hframe'.front_blank, hcode]
      rfl

theorem reindented_of_quiet
    (hkind : (readText conv continued (lead ++ t)).kind = .comment ∨
      (readText conv continued (lead ++ t)).kind = .blank) :
    Reindented (readText conv continued (lead ++ t)) (readText conv continued (lead' ++ t)) := by
  have hsame := kind_lead_of_quiet hsharp hlead hlead' hkind
  have hbare : (readText conv continued (lead ++ t)).Bare :=
    bare_of_kind (hkind.imp_right .inl)
  have hbare' : (readText conv continued (lead' ++ t)).Bare := by
    rw [← hsame] at hkind
    exact bare_of_kind (hkind.imp_right .inl)
  apply Reindented.kept hbare.condition hsame
  · intro hcomment
    have htrim : (lead' ++ t).trim = (lead ++ t).trim := by
      rw [Text.trim_lead hlead, Text.trim_lead hlead']
    exact comment_congr hsharp htrim (hsame.trans hcomment) hcomment
  · intro part
    rw [hbare.textOf_eq, hbare'.textOf_eq]

/-- The indentation of an operation or of a line without a shape stays one, and a line with a label
stays at the margin. -/
theorem reindented_of_lead {line : Text} (hline : lead ++ t = line)
    (hlabel : (readText conv continued line).kind = .label → lead = [] → lead' = [])
    (hindent : (readText conv continued line).kind = .operation ∨
      (readText conv continued line).kind = .unknown → lead' ≠ []) :
    Reindented (readText conv continued line) (readText conv continued (lead' ++ t)) := by
  subst hline
  obtain ⟨_, h⟩ := exists_marked conv continued t
  obtain ⟨marks, front, hframe, hlength⟩ := exists_frame_lead hsharp hlead h
  obtain ⟨marks', front', hframe', hlength'⟩ := exists_frame_lead hsharp hlead' h
  have hne : lead' ≠ [] → front' ≠ [] := by
    intro hne
    rwa [Ne, ← List.length_eq_zero_iff, hlength', List.length_eq_zero_iff]
  obtain ⟨_, hmarked, hblank | ⟨hink, hshapeless⟩ | ⟨kind, f, rest, hcode, hfits⟩⟩ :=
    readText_cases conv continued (lead ++ t)
  · apply reindented_of_quiet hsharp hlead hlead'
    exact (readText_of_allBlank hmarked hblank).2.imp_right And.left
  · obtain rfl := (hmarked.scans.unique hframe.marked.scans).1
    rw [readText_of_shapeless hmarked hink hshapeless] at hindent
    exact reindented_of_shapeless hframe hframe' (hne (hindent (.inr rfl))) hink hshapeless
  · obtain rfl := (hmarked.scans.unique hframe.marked.scans).1
    rw [readText_of_fits hmarked hcode hfits] at hlabel hindent
    exact reindented_of_fits hframe hframe' hlength hlength' hcode hfits hlabel
      fun hkind => hne (hindent (.inl hkind))

end lines

end Line
end AsmColumns
