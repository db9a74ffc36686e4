import AsmColumns.Proofs.Comment.Walk

/-!
# What a scan sees ahead

A scan looks ahead twice: at an exposed character it compares the opening delimiter with what
follows, and at a single quote that may open a quotation it asks whether another one follows
anywhere in the line.  The second question reaches across the whole line, so what stands behind a
piece of code can change how that piece is read.

It does so in one way only.  If the piece is left outside quotes, every quote that opened in it was
closed in it, and the answers it got are right for any other rest of the line, except at a quote
that waits: one that would have opened a quotation and found no partner.  At most the last quote of
the piece waits, and it finds its partner exactly if there is a quote in the new rest.
-/

namespace AsmColumns
namespace Comment

open Text (isWord)

/-- Whether a character is a single quote that opens a quotation if another one follows. -/
def Quoting.mayOpen (state : Quoting) (before : Option Char) (c : Char) : Bool :=
  state == {} && c == '\'' && !before.any isWord

/-- Whether the text, scanned from a state on, has a single quote that would open a quotation and
finds no other one behind it. -/
def awaitsQuote : Quoting → Option Char → Text → Bool
  | _, _, [] => false
  | state, before, c :: rest =>
      (state.mayOpen before c && !rest.contains '\'') ||
        awaitsQuote ((state.step before c rest).getD state) (some c) rest

section step

variable {conv : Convention} {state next : Quoting} {before : Option Char} {c : Char}
  {rest rest' : Text}

theorem mayOpen_iff :
    state.mayOpen before c = true ↔ state = {} ∧ c = '\'' ∧ before.any isWord = false := by
  simp [Quoting.mayOpen, and_assoc]

theorem step_of_mayOpen (h : state.mayOpen before c = true) :
    state.step before c rest = some (if '\'' ∈ rest then { quote := .single } else {}) := by
  obtain ⟨rfl, rfl, hbefore⟩ := mayOpen_iff.mp h
  by_cases hquote : '\'' ∈ rest <;> simp [Quoting.step, hbefore, hquote]

/-- Only a quote that may open a quotation depends on what follows it. -/
theorem step_of_not_mayOpen (h : state.mayOpen before c = false) :
    state.step before c rest = state.step before c rest' := by
  obtain ⟨quote, escaped⟩ := state
  by_cases hc : c = '\''
  · subst hc
    cases escaped with
    | true => rfl
    | false =>
        cases quote with
        | bare =>
            have hbefore : before.any isWord = true := by simpa [Quoting.mayOpen] using h
            simp [Quoting.step, hbefore]
        | single => rfl
        | double => rfl
  · simp [Quoting.step, hc]

theorem next_of_advance (h : advance conv state before c rest = some next) :
    (state.step before c rest).getD state = next := by
  unfold advance at h
  cases hstep : state.step before c rest with
  | some state' => simpa [hstep] using h
  | none =>
      rw [hstep] at h
      cases hopens : opensAt conv before (c :: rest) <;> simp_all

/-- Where a comment opens, it opens with the delimiter and anything behind it. -/
theorem advance_reopen_rest (hmark : conv.mark <+: c :: rest')
    (h : advance conv state before c rest = none) : advance conv state before c rest' = none := by
  obtain ⟨hstep, hopens⟩ := advance_eq_none_iff.mp h
  have hnot : state.mayOpen before c = false := by
    rw [Bool.eq_false_iff]
    intro hopen
    rw [step_of_mayOpen hopen] at hstep
    cases hstep
  rw [opensAt, Bool.and_eq_true] at hopens
  refine advance_eq_none_iff.mpr ⟨(step_of_not_mayOpen hnot).trans hstep, ?_⟩
  rw [opensAt, Bool.and_eq_true, List.isPrefixOf_iff_prefix]
  exact ⟨hmark, hopens.2⟩

theorem quote_single_of_advance (hsingle : state.quote = .single) (hc : c ≠ '\'')
    (h : advance conv state before c rest = some next) : next.quote = .single := by
  obtain ⟨quote, escaped⟩ := state
  obtain rfl : quote = .single := hsingle
  rw [← next_of_advance h]
  cases escaped with
  | true => rfl
  | false => by_cases hslash : c = '\\' <;> simp [Quoting.step, hc, hslash]

end step

namespace Walks

variable {conv : Convention} {state last : Quoting} {before : Option Char}
  {front rest rest' : Text}

/-- A quotation stays open as long as no quote comes. -/
theorem single_of_notMem (hsingle : state.quote = .single) (hfront : '\'' ∉ front)
    (h : Walks conv state before front rest last) : last.quote = .single := by
  induction h with
  | nil => exact hsingle
  | cons hnext _ ih =>
      rw [List.mem_cons, not_or] at hfront
      exact ih (quote_single_of_advance hsingle (Ne.symm hfront.1) hnext) hfront.2

/-- A quote that may open does so for a partner in the rest of the line, and is open at the end of
the walk then. -/
theorem single_of_open {c : Char} {next : Quoting} (hopen : state.mayOpen before c = true)
    (hfront : '\'' ∉ front) (hrest : '\'' ∈ rest)
    (hnext : advance conv state before c (front ++ rest) = some next)
    (h : Walks conv next (some c) front rest last) : last.quote = .single := by
  refine h.single_of_notMem ?_ hfront
  rw [← next_of_advance hnext, step_of_mayOpen hopen, if_pos (List.mem_append_right _ hrest)]
  rfl

/-- The state behind a character can be told from the piece of code alone, unless a quote in it is
paired with one behind it. -/
theorem next_of_front {c : Char} {next : Quoting}
    (hnext : advance conv state before c (front ++ rest) = some next)
    (hpair : state.mayOpen before c = true → '\'' ∉ front → '\'' ∉ rest) :
    (state.step before c front).getD state = next := by
  rw [← next_of_advance hnext]
  congr 1
  cases hopen : state.mayOpen before c with
  | false => exact step_of_not_mayOpen hopen
  | true =>
      rw [step_of_mayOpen hopen, step_of_mayOpen hopen]
      by_cases hfront : '\'' ∈ front
      · simp [hfront]
      · simp [hfront, hpair hopen hfront]

/-- Code that is left outside quotes is the same code before another rest of the line, if that has
no quote for one that waits and completes no delimiter. -/
theorem reread (hlast : last.quote ≠ .single)
    (hquote : '\'' ∈ rest' → '\'' ∈ rest ∨ awaitsQuote state before front = false)
    (hmark : ∀ c more, c :: more <:+ front → conv.mark <+: c :: (more ++ rest') →
      conv.mark <+: c :: (more ++ rest))
    (h : Walks conv state before front rest last) : Walks conv state before front rest' last := by
  induction h with
  | nil => exact .nil
  | @cons state next last before c front rest hnext hwalks ih =>
      -- A quote that opened for a partner in the rest would still be open.
      have hpair : state.mayOpen before c = true → '\'' ∉ front → '\'' ∉ rest :=
        fun hopen hfront hrest => hlast (single_of_open hopen hfront hrest hnext hwalks)
      have hsame : state.step before c (front ++ rest') = state.step before c (front ++ rest) := by
        cases hopen : state.mayOpen before c with
        | false => exact step_of_not_mayOpen hopen
        | true =>
            rw [step_of_mayOpen hopen, step_of_mayOpen hopen]
            by_cases hfront : '\'' ∈ front
            · simp [hfront]
            · have hrest := hpair hopen hfront
              have hrest' : '\'' ∉ rest' := by
                intro hmem
                have hwaits := (hquote hmem).resolve_left hrest
                simp [awaitsQuote, hopen, hfront] at hwaits
              simp [hfront, hrest, hrest']
      have hadvance : advance conv state before c (front ++ rest') = some next :=
        advance_of_step hsame (hmark c front (List.suffix_refl _)) hnext
      refine .cons hadvance (ih hlast (fun hmem => ?_) fun d more hmore => ?_)
      · refine (hquote hmem).imp id fun hwaits => ?_
        rw [awaitsQuote, Bool.or_eq_false_iff, next_of_front hnext hpair] at hwaits
        exact hwaits.2
      · exact hmark d more (hmore.trans (List.suffix_cons c front))

/-- A quote that waits is paired with one in the rest of the line. -/
theorem single_of_awaitsQuote (hwaits : awaitsQuote state before front = true)
    (hrest : '\'' ∈ rest) (h : Walks conv state before front rest last) :
    last.quote = .single := by
  induction h with
  | nil => cases hwaits
  | @cons state next last before c front rest hnext hwalks ih =>
      by_cases hopen : state.mayOpen before c = true ∧ '\'' ∉ front
      · exact single_of_open hopen.1 hopen.2 hrest hnext hwalks
      · have hpair : state.mayOpen before c = true → '\'' ∉ front → '\'' ∉ rest :=
          fun hmay hfront => absurd ⟨hmay, hfront⟩ hopen
        have hlater : (state.mayOpen before c && !front.contains '\'') = false := by
          rw [Bool.eq_false_iff]
          simpa using hopen
        rw [awaitsQuote, hlater, Bool.false_or, next_of_front hnext hpair] at hwaits
        exact ih hwaits hrest

end Walks

end Comment
end AsmColumns
