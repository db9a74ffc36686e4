import AsmColumns.Proofs.Comment.Scan

/-!
# Walking over code

The part of a line before its first comment is walked over character by character, and all that
remains of it is the state of quoting behind it.  A walk can be cut and joined, it does not depend
on how wide its gaps are, and what follows it matters only through the single quotes in it and
through the way it starts.

The last section turns to texts that may hold comments: one blank between two pieces of a line can
be replaced by several, whether it stands in code, in quotes or in a comment.
-/

namespace AsmColumns
namespace Comment

/-- From a state, the first part of a text is all code and leaves the last state. -/
inductive Walks (conv : Convention) :
    Quoting → Option Char → Text → Text → Quoting → Prop where
  | nil {state : Quoting} {before : Option Char} {rest : Text} :
      Walks conv state before [] rest state
  | cons {state next last : Quoting} {before : Option Char} {c : Char} {front rest : Text} :
      advance conv state before c (front ++ rest) = some next →
      Walks conv next (some c) front rest last →
      Walks conv state before (c :: front) rest last

/-- The character before what follows a text. -/
def lastOf (before : Option Char) (t : Text) : Option Char :=
  t.getLast?.or before

@[simp] theorem lastOf_nil (before : Option Char) : lastOf before [] = before := rfl

@[simp] theorem lastOf_cons (before : Option Char) (c : Char) (t : Text) :
    lastOf before (c :: t) = lastOf (some c) t :=
  getLast?_cons_or c t before

theorem lastOf_append (before : Option Char) (s t : Text) :
    lastOf before (s ++ t) = lastOf (lastOf before s) t := by
  induction s generalizing before with
  | nil => rfl
  | cons c s ih => simp [ih]

theorem lastOf_blank {before : Option Char} {gap : Text}
    (hne : gap ≠ []) (hgap : Text.allBlank gap) :
    (lastOf before gap).all Text.isBlank = true := by
  induction gap generalizing before with
  | nil => exact absurd rfl hne
  | cons c gap ih =>
      rw [Text.allBlank_cons, Bool.and_eq_true] at hgap
      rw [lastOf_cons]
      by_cases hnil : gap = []
      · subst hnil
        exact hgap.1
      · exact ih hnil hgap.2

namespace Walks

variable {conv : Convention} {state middle last last' : Quoting} {before before' : Option Char}
  {front second rest rest' gap : Text} {marks : List Bool} {leftOpen : Bool}

theorem scans
    (h : Walks conv state before front rest last)
    (hrest : Scans conv (.code last (lastOf before front)) rest marks leftOpen) :
    Scans conv (.code state before) (front ++ rest)
      (List.replicate front.length false ++ marks) leftOpen := by
  induction h with
  | nil => exact hrest
  | cons hnext _ ih =>
      rw [lastOf_cons] at hrest
      exact .code hnext (ih hrest)

theorem unique
    (h : Walks conv state before front rest last)
    (h' : Walks conv state before front rest last') : last = last' := by
  induction h with
  | nil => cases h'; rfl
  | cons hnext _ ih =>
      cases h' with
      | cons hnext' hfront =>
          rw [hnext, Option.some.injEq] at hnext'
          subst hnext'
          exact ih hfront

theorem append
    (h : Walks conv state before front (second ++ rest) middle)
    (h' : Walks conv middle (lastOf before front) second rest last) :
    Walks conv state before (front ++ second) rest last := by
  generalize htext : second ++ rest = text at h
  induction h with
  | nil => exact h'
  | cons hnext _ ih =>
      subst htext
      rw [lastOf_cons] at h'
      rw [List.cons_append]
      exact .cons (by rwa [List.append_assoc]) (ih h' rfl)

theorem of_append (h : Walks conv state before (front ++ second) rest last) :
    ∃ middle, Walks conv state before front (second ++ rest) middle ∧
      Walks conv middle (lastOf before front) second rest last := by
  induction front generalizing state before with
  | nil => exact ⟨state, .nil, h⟩
  | cons c front ih =>
      rw [List.cons_append] at h
      cases h with
      | cons hnext hrest =>
          obtain ⟨middle, hfront, hsecond⟩ := ih hrest
          rw [List.append_assoc] at hnext
          exact ⟨middle, .cons hnext hfront, by rwa [lastOf_cons]⟩

theorem congr_before
    (hadvance : ∀ c more, front = c :: more →
      advance conv state before c (more ++ rest) = advance conv state before' c (more ++ rest))
    (h : Walks conv state before front rest last) :
    Walks conv state before' front rest last := by
  cases h with
  | nil => exact .nil
  | cons hnext hrest => exact .cons (hadvance _ _ rfl ▸ hnext) hrest

/-- What follows code may be pushed off it by a blank, or cut off, if that leaves the same single
quotes ahead. -/
theorem push (hsharp : conv.Sharp)
    (hquote : '\'' ∈ rest ↔ '\'' ∈ rest')
    (hblank : rest'.head?.all Text.isBlank = true)
    (h : Walks conv state before front rest last) :
    Walks conv state before front rest' last := by
  induction h with
  | nil => exact .nil
  | @cons state next last before c front rest hnext _ ih =>
      refine .cons (advance_of_opens ?_ ?_ hnext) (ih hquote)
      · simp [hquote]
      · intro hmark
        have hfront : conv.mark <+: c :: front := by
          cases rest' with
          | nil => rwa [List.append_nil] at hmark
          | cons d rest' =>
              exact (Text.prefix_append_blank_iff (s := c :: front) hsharp.mark_ink hblank).mp hmark
        exact hfront.trans (List.prefix_append (c :: front) rest)

theorem blanks (hsharp : conv.Sharp) (hne : gap ≠ []) (hgap : Text.allBlank gap) :
    Walks conv state before gap rest { state with escaped := false } := by
  induction gap generalizing state before with
  | nil => exact absurd rfl hne
  | cons c gap ih =>
      rw [Text.allBlank_cons, Bool.and_eq_true] at hgap
      refine .cons (advance_blank hsharp hgap.1) ?_
      by_cases hnil : gap = []
      · subst hnil
        exact .nil
      · exact ih hnil hgap.2

theorem neutral (hsharp : conv.Sharp)
    (hbefore : before.all Text.isBlank = true)
    (hbefore' : before'.all Text.isBlank = true)
    (h : Walks conv state before front rest last) : Walks conv state before' front rest last :=
  h.congr_before fun _ _ _ => advance_neutral hsharp hbefore hbefore'

/-- The width of a gap does not matter. -/
theorem regap (hsharp : conv.Sharp) {gap' : Text}
    (hne : gap ≠ []) (hgap : Text.allBlank gap)
    (hne' : gap' ≠ []) (hgap' : Text.allBlank gap')
    (h : Walks conv state before (front ++ (gap ++ second)) rest last) :
    Walks conv state before (front ++ (gap' ++ second)) rest last := by
  obtain ⟨middle, hfront, hlater⟩ := h.of_append
  obtain ⟨middle', hblanks, hsecond⟩ := hlater.of_append
  obtain rfl := hblanks.unique (blanks hsharp hne hgap)
  have hpush : Walks conv state before front (gap' ++ second ++ rest) middle := by
    apply hfront.push hsharp
    · simp [quote_notMem_of_allBlank hgap, quote_notMem_of_allBlank hgap']
    · rw [List.append_assoc]
      exact Text.head?_blank_of_allBlank hne' hgap' _
  refine hpush.append ((blanks hsharp hne' hgap').append ?_)
  exact hsecond.neutral hsharp (lastOf_blank hne hgap) (lastOf_blank hne' hgap')

/-- Code that is trimmed and padded leads to what follows it as before. -/
theorem close (hsharp : conv.Sharp) {pad : Text}
    (hne : pad ≠ []) (hpad : Text.allBlank pad)
    (hquote : '\'' ∈ rest ↔ '\'' ∈ rest')
    (h : Walks conv state before front rest last) :
    Walks conv state before (front.trimRight ++ pad) rest' { last with escaped := false } := by
  rw [← Text.trimRight_eq front] at h
  obtain ⟨middle, hfront, htail⟩ := h.of_append
  have hblank := Text.allBlank_takeTail front
  have hlast : ({ last with escaped := false } : Quoting) = { middle with escaped := false } := by
    by_cases hnil : front.takeTail Text.isBlank = []
    · rw [hnil] at htail
      cases htail
      rfl
    · rw [htail.unique (blanks hsharp hnil hblank)]
  rw [hlast]
  refine append (hfront.push hsharp ?_ (Text.head?_blank_of_allBlank hne hpad _))
    (blanks hsharp hne hpad)
  simp [quote_notMem_of_allBlank hblank, quote_notMem_of_allBlank hpad, hquote]

theorem trimRight (hsharp : conv.Sharp) (h : Walks conv state before front [] last) :
    ∃ last', Walks conv state before front.trimRight [] last' := by
  rw [← Text.trimRight_eq front] at h
  obtain ⟨middle, hfront, _⟩ := h.of_append
  refine ⟨middle, hfront.push hsharp ?_ rfl⟩
  simp [quote_notMem_of_allBlank (Text.allBlank_takeTail front)]

/-- Plain characters and blanks leave no trace. -/
theorem plain (hsharp : conv.Sharp)
    (hfront : ∀ c ∈ front, isPlain c = true ∨ Text.isBlank c = true) :
    Walks conv {} before front rest {} := by
  induction front generalizing before with
  | nil => exact .nil
  | cons c front ih =>
      have hmore := fun x hx => hfront x (List.mem_cons_of_mem c hx)
      refine .cons ?_ (ih hmore)
      rcases hfront c List.mem_cons_self with hplain | hblank
      · exact advance_plain hsharp hplain
      · exact advance_blank hsharp hblank

end Walks

/-! ## Cutting a scan at a walk -/

section cut

variable {conv : Convention} {state last : Quoting} {before before' : Option Char}
  {front rest : Text} {marks : List Bool} {leftOpen : Bool}

theorem Scans.walks (hmark : conv.mark ≠ [])
    (h : Scans conv (.code state before) (front ++ rest)
      (List.replicate front.length false ++ marks) leftOpen) :
    ∃ last, Walks conv state before front rest last ∧
      Scans conv (.code last (lastOf before front)) rest marks leftOpen := by
  induction front generalizing state before with
  | nil => exact ⟨state, .nil, h⟩
  | cons c front ih =>
      rw [List.cons_append, List.length_cons, List.replicate_succ, List.cons_append] at h
      generalize hmarks : false :: (List.replicate front.length false ++ marks) = all at h
      cases h with
      | code hnext hrest =>
          rw [List.cons.injEq] at hmarks
          obtain ⟨last, hwalks, hscans⟩ := ih (hmarks.2 ▸ hrest)
          exact ⟨last, .cons hnext hwalks, by rwa [lastOf_cons]⟩
      | line => simp [List.replicate_succ] at hmarks
      | block =>
          obtain ⟨x, mark, hx⟩ := List.exists_cons_of_ne_nil hmark
          simp [hx, List.replicate_succ] at hmarks

/-- Where marks begin in code, the opening delimiter stands. -/
theorem prefix_of_scans
    (h : Scans conv (.code state before) rest marks leftOpen)
    (hmarks : marks.head? = some true) : conv.mark <+: rest := by
  cases h with
  | done => cases hmarks
  | code => cases hmarks
  | line hnone => exact prefix_of_advance hnone
  | block hnone => exact prefix_of_advance hnone

end cut

section reopen

variable {conv : Convention} {state : Quoting} {before before' : Option Char} {t z : Text}
  {marks : List Bool} {leftOpen : Bool}

theorem Scans.reopen
    (hbefore' : before'.all Text.isBlank = true)
    (hmarks : t = [] ∨ marks.head? = some true)
    (h : Scans conv (.code state before) t marks leftOpen) :
    Scans conv (.code {} before') t marks leftOpen := by
  cases h with
  | done => exact .done
  | code => simp at hmarks
  | line hnone hline =>
      obtain ⟨rfl, hnone'⟩ := advance_reopen hbefore' hnone
      exact .line hnone' hline
  | block hnone hblock htext hbody =>
      obtain ⟨rfl, hnone'⟩ := advance_reopen hbefore' hnone
      exact .block hnone' hblock htext hbody

theorem Scans.state_of_opens
    (hmarks : marks.head? = some true)
    (h : Scans conv (.code state before) t marks leftOpen) : state = {} := by
  have hblank : (none : Option Char).all Text.isBlank = true := rfl
  cases h with
  | done => cases hmarks
  | code => cases hmarks
  | line hnone => exact (advance_reopen hblank hnone).1
  | block hnone => exact (advance_reopen hblank hnone).1

theorem Scans.of_trail (hsharp : conv.Sharp)
    (hz : Text.allBlank z)
    (h : Scans conv (.code state before) (t ++ z) marks leftOpen) :
    ∃ marks' mark, Scans conv (.code state before) t marks' leftOpen ∧
      marks = marks' ++ List.replicate z.length mark := by
  obtain ⟨marks', leftOpen', hscans⟩ := exists_scans_code conv state before t
  obtain ⟨mark, htrail⟩ := hscans.trail hsharp hz
  obtain ⟨hmarks, rfl⟩ := h.unique htrail
  exact ⟨marks', mark, hscans, hmarks⟩

end reopen

/-! ## Widening a gap -/

section regap

variable {conv : Convention} {mode : Mode} {text t gap : Text} {c d : Char} {marks : List Bool}
  {leftOpen : Bool}

theorem lengthToClose?_regap (hsharp : conv.Sharp)
    (hc : Text.isBlank c = true) (hd : Text.isBlank d = true) (hgap : Text.allBlank gap) {s : Text}
    (h : lengthToClose? conv (s ++ c :: t) = none) :
    lengthToClose? conv (s ++ d :: (gap ++ t)) = none := by
  have hne := closing_ne_of_unclosed h
  rw [lengthToClose?, Option.map_eq_none_iff] at h ⊢
  rw [Text.offsetOf?_append_blank hne hsharp.closing_ink hc, Option.or_eq_none_iff,
    Option.map_eq_none_iff] at h
  rw [Text.offsetOf?_append_blank hne hsharp.closing_ink hd,
    Text.offsetOf?_lead hne hsharp.closing_ink hgap, h.1, h.2]
  rfl

theorem advance_regap (hsharp : conv.Sharp)
    (hc : Text.isBlank c = true) (hd : Text.isBlank d = true) (hgap : Text.allBlank gap)
    {state : Quoting} {before : Option Char} {x : Char} {s : Text} :
    advance conv state before x (s ++ d :: (gap ++ t)) =
      advance conv state before x (s ++ c :: t) := by
  refine advance_congr_rest ?_ ?_
  · have hquote : ∀ e, Text.isBlank e = true → '\'' ≠ e := by
      rintro e he rfl
      revert he
      decide
    simp [quote_notMem_of_allBlank hgap, hquote c hc, hquote d hd]
  · have hleft := Text.isPrefixOf_append_blank (s := x :: s) (t := gap ++ t) hsharp.mark_ink hd
    have hright := Text.isPrefixOf_append_blank (s := x :: s) (t := t) hsharp.mark_ink hc
    exact hleft.trans hright.symm

theorem ink_regap (hc : Text.isBlank c = true) (hd : Text.isBlank d = true)
    (hgap : Text.allBlank gap) (s : Text) :
    Text.ink (s ++ d :: (gap ++ t)) = Text.ink (s ++ c :: t) := by
  simp [hc, hd, hgap]

/-- A closing delimiter behind a blank is found behind a wider gap as well. -/
theorem lengthToClose?_widen (hsharp : conv.Sharp)
    (hc : Text.isBlank c = true) (hd : Text.isBlank d = true) (hgap : Text.allBlank gap)
    {s body : Text}
    (h : lengthToClose? conv (s ++ c :: body) = some (s ++ c :: body).length) :
    lengthToClose? conv (s ++ d :: (gap ++ body)) = some (s ++ d :: (gap ++ body)).length ∧
      body ≠ [] := by
  have hblock : conv.closing ≠ [] := by
    intro hnil
    cases s <;> simp [lengthToClose?, Text.offsetOf?, hnil] at h
  obtain ⟨i, hi, hlength⟩ := Option.map_eq_some_iff.mp h
  have hpos := List.length_pos_iff.mpr hblock
  rw [Text.offsetOf?_append_blank hblock hsharp.closing_ink hc] at hi
  cases hs : Text.offsetOf? conv.closing s with
  | some j =>
      rw [hs, Option.some_or, Option.some.injEq] at hi
      obtain ⟨front, rest, hcut, hfront⟩ := Text.exists_of_offsetOf? hs
      have := congrArg List.length hcut
      simp only [List.length_append, List.length_cons] at hlength this
      omega
  | none =>
      rw [hs, Option.none_or] at hi
      obtain ⟨k, hk, rfl⟩ := Option.map_eq_some_iff.mp hi
      constructor
      · rw [lengthToClose?, Text.offsetOf?_append_blank hblock hsharp.closing_ink hd, hs,
          Text.offsetOf?_lead hblock hsharp.closing_ink hgap, hk]
        simp only [Option.none_or, Option.map_some, Option.some.injEq, List.length_append,
          List.length_cons] at hlength ⊢
        omega
      · rintro rfl
        simp [Text.offsetOf?, hblock] at hk

/-- Replacing one blank by several keeps the ink of the comments. -/
theorem Scans.regap (hsharp : conv.Sharp)
    (hc : Text.isBlank c = true) (hd : Text.isBlank d = true) (hgap : Text.allBlank gap)
    (h : Scans conv mode text marks leftOpen) (s : Text) (htext : text = s ++ c :: t) :
    ∃ marks', Scans conv mode (s ++ d :: (gap ++ t)) marks' leftOpen ∧
      Text.ink (marked marks' (s ++ d :: (gap ++ t))) = Text.ink (marked marks text) := by
  induction h generalizing s with
  | done => simp at htext
  | @code state next before x rest marks leftOpen hnext hrest ih =>
      cases s with
      | nil =>
          rw [List.nil_append] at htext ⊢
          obtain ⟨rfl, rfl⟩ := List.cons.inj htext
          rw [advance_blank hsharp hc, Option.some.injEq] at hnext
          subst hnext
          have hold : (some x).all Text.isBlank = true := hc
          have hnew : (some d).all Text.isBlank = true := hd
          have hlater := (hrest.neutral hsharp hold rfl).lead_code hsharp rfl hnew hgap
          refine ⟨_, .code (advance_blank hsharp hd) hlater, ?_⟩
          simp [marked, marked_append]
      | cons y s =>
          rw [List.cons_append] at htext ⊢
          obtain ⟨rfl, rfl⟩ := List.cons.inj htext
          obtain ⟨marks', hscans, hink⟩ := ih s rfl
          refine ⟨false :: marks', .code ?_ hscans, hink⟩
          rwa [advance_regap hsharp hc hd hgap]
  | @line state before x rest hnone hline =>
      cases s with
      | nil =>
          obtain ⟨rfl, rfl⟩ := List.cons.inj htext
          simp [advance_blank hsharp hc] at hnone
      | cons y s =>
          have hink := ink_regap (t := t) hc hd hgap (y :: s)
          rw [List.cons_append] at htext hink ⊢
          obtain ⟨rfl, rfl⟩ := List.cons.inj htext
          refine ⟨_, .line (by rwa [advance_regap hsharp hc hd hgap]) hline, ?_⟩
          rwa [← List.length_cons, ← List.length_cons, marked_replicate_true,
            marked_replicate_true]
  | @block state before x rest body marks leftOpen hnone hblock hbody _ ih =>
      -- The delimiter holds no blank, so it ends before the gap.
      have hfront : conv.mark <+: s := by
        rw [← Text.prefix_append_blank_iff hsharp.mark_ink hc (t := t), ← htext]
        exact ⟨body, hbody.symm⟩
      obtain ⟨s, rfl⟩ := hfront
      have hrest : body = s ++ c :: t := by
        rw [htext, List.append_assoc] at hbody
        exact (List.append_cancel_left hbody).symm
      obtain ⟨marks', hscans, hink⟩ := ih s hrest
      obtain ⟨y, mark, hmark⟩ := List.exists_cons_of_ne_nil hsharp.mark_ne
      rw [hmark, List.cons_append, List.cons_append] at htext
      obtain ⟨rfl, rfl⟩ := List.cons.inj htext
      have hnew : conv.mark ++ s ++ d :: (gap ++ t) = x :: (mark ++ s ++ d :: (gap ++ t)) := by
        rw [hmark, List.cons_append, List.cons_append]
      have hcut : conv.mark ++ s ++ d :: (gap ++ t) = conv.mark ++ (s ++ d :: (gap ++ t)) :=
        List.append_assoc ..
      have hscans := Scans.block (by rwa [advance_regap hsharp hc hd hgap]) hblock
        (hnew.symm.trans hcut) hscans
      rw [← hnew] at hscans
      refine ⟨_, hscans, ?_⟩
      rw [hcut, hbody, ink_marked_region, ink_marked_region, hink]
  | unclosed hnone =>
      subst htext
      refine ⟨_, .unclosed (lengthToClose?_regap hsharp hc hd hgap hnone), ?_⟩
      rw [marked_replicate_true, marked_replicate_true, ink_regap hc hd hgap]
  | @closed text body rest marks leftOpen hcut hclosed hrest ih =>
      rw [hcut] at htext
      rcases List.append_eq_append_iff.mp htext with ⟨more, hs, hmore⟩ | ⟨more, hs, hmore⟩
      · obtain ⟨marks', hscans, hink⟩ := ih more hmore
        subst hs
        refine ⟨_, .closed (List.append_assoc ..) hclosed hscans, ?_⟩
        rw [hcut, List.append_assoc, ink_marked_region, ink_marked_region, hink]
      · cases more with
        | nil =>
            obtain ⟨marks', hscans, hink⟩ := ih [] hmore.symm
            rw [List.append_nil] at hs
            subst hs
            refine ⟨_, .closed rfl hclosed hscans, ?_⟩
            rw [hcut, ink_marked_region, ink_marked_region]
            exact congrArg _ hink
        | cons e more =>
            rw [List.cons_append] at hmore
            obtain ⟨rfl, rfl⟩ := List.cons.inj hmore
            subst hs
            obtain ⟨hwide, hne⟩ := lengthToClose?_widen hsharp hc hd hgap hclosed
            have hlast : (s ++ d :: (gap ++ more)).getLast? = (s ++ c :: more).getLast? := by
              rw [← List.cons_append, ← List.append_assoc, List.getLast?_append_of_ne_nil _ hne,
                List.getLast?_append_cons, List.getLast?_cons_of_ne_nil hne]
            rw [← hlast] at hrest
            refine ⟨_, .closed (by simp) hwide hrest, ?_⟩
            have hnew : s ++ d :: (gap ++ (more ++ rest)) = s ++ d :: (gap ++ more) ++ rest := by
              simp
            rw [hcut, hnew, ink_marked_region, ink_marked_region, ink_regap hc hd hgap]

end regap

end Comment
end AsmColumns
