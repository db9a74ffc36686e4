import AsmColumns.Proofs.Comment.Marks
import AsmColumns.Proofs.Text.Classes
import AsmColumns.Proofs.Text.Occurrence

/-!
# How a line is scanned

The scan of a line as a relation: from a mode, which is either code with a state of quoting or the
inside of a comment, a text is given its marks and left with a comment open or not.  The relation
is what the scanning function computes, and it is determined by the mode and the text.

Most of the module says what the marks do not depend on.  Blanks at the two ends of a line are
neutral, and so is the length of a gap between two pieces of it.  The scan looks only at two things
outside the character it has reached: the character before it, and whether another single quote
follows.
-/

namespace AsmColumns
namespace Comment

open Line (isLabelChar)

/-- The characters, blanks apart, that can stand before the operands of a line. -/
def isPlain (c : Char) : Bool :=
  isLabelChar c || c == ':' || c == '(' || c == ')'

/-- A convention whose delimiters are made of characters that play no other part in a line. -/
structure Convention.Sharp (conv : Convention) : Prop where
  opening_isSome : conv.opening.isSome
  mark_ne : conv.mark ≠ []
  mark_ink : ∀ c ∈ conv.mark, Text.isBlank c = false
  mark_sharp : ∀ c ∈ conv.mark, isPlain c = false
  closing_ink : ∀ c ∈ conv.closing, Text.isBlank c = false
  mark_star : conv.style = .lineStar → conv.mark = ['*']
  isBlock_star : conv.style = .lineStar → conv.isBlock = false

theorem sharp_ofStyle (style : Style) : (Convention.ofStyle style).Sharp := by
  have hall : ∀ {inClass : Char → Bool} {t : Text}, t.all (!inClass ·) = true →
      ∀ c ∈ t, inClass c = false := by
    intro inClass t h c hc
    simpa using List.all_eq_true.mp h c hc
  cases style <;> exact ⟨by decide, by decide, hall (by decide), hall (by decide),
    hall (by decide), by decide, by decide⟩

/-! ## One character of code -/

/-- The state behind a character of code, and `none` where a comment opens. -/
def advance (conv : Convention) (state : Quoting) (before : Option Char) (c : Char)
    (rest : Text) : Option Quoting :=
  match state.step before c rest with
  | some next => some next
  | none => if opensAt conv before (c :: rest) then none else some state

section advance

variable {conv : Convention} {state : Quoting} {before before' : Option Char} {c : Char}
  {rest rest' : Text}

theorem advance_eq_none_iff :
    advance conv state before c rest = none ↔
      state.step before c rest = none ∧ opensAt conv before (c :: rest) = true := by
  unfold advance
  cases state.step before c rest with
  | some next => simp
  | none => cases opensAt conv before (c :: rest) <;> simp

theorem prefix_of_advance (h : advance conv state before c rest = none) :
    conv.mark <+: c :: rest := by
  have hopens := (advance_eq_none_iff.mp h).2
  rw [opensAt, Bool.and_eq_true, List.isPrefixOf_iff_prefix] at hopens
  exact hopens.1

theorem step_congr_rest (hquote : '\'' ∈ rest ↔ '\'' ∈ rest') :
    state.step before c rest = state.step before c rest' := by
  have hcontains : rest.contains '\'' = rest'.contains '\'' := by
    rw [Bool.eq_iff_iff]
    simpa using hquote
  simp only [Quoting.step, hcontains]

theorem advance_congr_rest
    (hquote : '\'' ∈ rest ↔ '\'' ∈ rest')
    (hmark : conv.mark.isPrefixOf (c :: rest) = conv.mark.isPrefixOf (c :: rest')) :
    advance conv state before c rest = advance conv state before c rest' := by
  have hopens : opensAt conv before (c :: rest) = opensAt conv before (c :: rest') := by
    rw [opensAt, opensAt, hmark]
  simp only [advance, step_congr_rest hquote, hopens]

/-- A change ahead that opens no comment here leaves a character what it is. -/
theorem advance_of_step {next : Quoting}
    (hstep : state.step before c rest' = state.step before c rest)
    (hmark : conv.mark <+: c :: rest' → conv.mark <+: c :: rest)
    (h : advance conv state before c rest = some next) :
    advance conv state before c rest' = some next := by
  unfold advance at h ⊢
  rw [hstep]
  cases hold : state.step before c rest with
  | some _ => simpa [hold] using h
  | none =>
      have hopens : opensAt conv before (c :: rest) = false := by
        cases hopens : opensAt conv before (c :: rest) with
        | false => rfl
        | true => simp [hold, hopens] at h
      have hopens' : opensAt conv before (c :: rest') = false := by
        rw [Bool.eq_false_iff] at hopens ⊢
        intro hnew
        refine hopens ?_
        rw [opensAt, Bool.and_eq_true, List.isPrefixOf_iff_prefix] at hnew ⊢
        exact ⟨hmark hnew.1, hnew.2⟩
      simpa [hold, hopens, hopens'] using h

theorem advance_of_opens {next : Quoting}
    (hquote : '\'' ∈ rest ↔ '\'' ∈ rest')
    (hmark : conv.mark <+: c :: rest' → conv.mark <+: c :: rest)
    (h : advance conv state before c rest = some next) :
    advance conv state before c rest' = some next :=
  advance_of_step (step_congr_rest hquote).symm hmark h

theorem advance_congr_before (hsharp : conv.Sharp)
    (hprime : c = '\'' → '\'' ∈ rest → before.any Text.isWord = before'.any Text.isWord)
    (hstar : conv.style = .lineStar → c = '*' →
      before.all Text.isBlank = before'.all Text.isBlank) :
    advance conv state before c rest = advance conv state before' c rest := by
  have hstep : state.step before c rest = state.step before' c rest := by
    by_cases hc : c = '\''
    · by_cases hquote : '\'' ∈ rest
      · simp only [Quoting.step, hprime hc hquote]
      · have hcontains : rest.contains '\'' = false := by simpa using hquote
        simp only [Quoting.step, hcontains, Bool.and_false]
    · simp [Quoting.step, hc]
  have hopens : opensAt conv before (c :: rest) = opensAt conv before' (c :: rest) := by
    by_cases hstyle : conv.style = .lineStar
    · by_cases hc : c = '*'
      · rw [opensAt, opensAt, hstar hstyle hc]
      · have hmark : conv.mark.isPrefixOf (c :: rest) = false := by
          rw [hsharp.mark_star hstyle, Bool.eq_false_iff]
          intro hhere
          exact hc (List.cons_prefix_cons.mp (List.isPrefixOf_iff_prefix.mp hhere)).1.symm
        rw [opensAt, opensAt, hmark, Bool.false_and, Bool.false_and]
    · have hother : (conv.style != .lineStar) = true := by simpa using hstyle
      rw [opensAt, opensAt, hother, Bool.true_or, Bool.true_or]
  simp only [advance, hstep, hopens]

theorem exposed_of_step (h : state.step before c rest = none) : state = {} ∧ c ≠ '\'' := by
  obtain ⟨quote, escaped⟩ := state
  cases escaped with
  | true => simp [Quoting.step] at h
  | false => cases quote <;> grind [Quoting.step]

/-- Where a comment opens behind anything it opens behind a blank. -/
theorem advance_reopen
    (hbefore' : before'.all Text.isBlank = true)
    (h : advance conv state before c rest = none) :
    state = {} ∧ advance conv state before' c rest = none := by
  obtain ⟨hstep, hopens⟩ := advance_eq_none_iff.mp h
  obtain ⟨rfl, hc⟩ := exposed_of_step hstep
  refine ⟨rfl, advance_eq_none_iff.mpr ⟨?_, ?_⟩⟩
  · rw [← hstep]
    simp [Quoting.step, hc]
  · rw [opensAt, Bool.and_eq_true] at hopens ⊢
    exact ⟨hopens.1, by simp [hbefore']⟩

theorem advance_blank (hsharp : conv.Sharp) (hblank : Text.isBlank c = true) :
    advance conv state before c rest = some { state with escaped := false } := by
  have hopens : opensAt conv before (c :: rest) = false := by
    have hsplit := Text.isPrefixOf_append_blank (s := []) (t := rest) hsharp.mark_ink hblank
    have hmark : conv.mark.isPrefixOf (c :: rest) = false := by
      rw [← List.nil_append (c :: rest), hsplit, Bool.eq_false_iff]
      intro hnil
      exact hsharp.mark_ne (List.prefix_nil.mp (List.isPrefixOf_iff_prefix.mp hnil))
    rw [opensAt, hmark, Bool.false_and]
  have hslash : c ≠ '\\' := by
    rintro rfl
    revert hblank
    decide
  have hdouble : c ≠ '"' := by
    rintro rfl
    revert hblank
    decide
  have hsingle : c ≠ '\'' := by
    rintro rfl
    revert hblank
    decide
  obtain ⟨quote, escaped⟩ := state
  cases escaped with
  | true => simp [advance, Quoting.step]
  | false => cases quote <;> simp [advance, Quoting.step, hslash, hdouble, hsingle, hopens]

theorem advance_plain (hsharp : conv.Sharp) (hplain : isPlain c = true) :
    advance conv {} before c rest = some {} := by
  have hopens : opensAt conv before (c :: rest) = false := by
    rw [opensAt, Bool.and_eq_false_iff]
    refine .inl ?_
    rw [Bool.eq_false_iff]
    intro hmark
    obtain ⟨x, mark, hx⟩ := List.exists_cons_of_ne_nil hsharp.mark_ne
    rw [List.isPrefixOf_iff_prefix, hx, List.cons_prefix_cons] at hmark
    have := hsharp.mark_sharp x (by simp [hx])
    simp [hmark.1, hplain] at this
  have hslash : c ≠ '\\' := by
    rintro rfl
    revert hplain
    decide
  have hdouble : c ≠ '"' := by
    rintro rfl
    revert hplain
    decide
  have hsingle : c ≠ '\'' := by
    rintro rfl
    revert hplain
    decide
  simp [advance, Quoting.step, hslash, hdouble, hsingle, hopens]

end advance

/-! ## The scan as a relation -/

/-- Where a scan stands: in the code of a line, behind a character of it, or in a comment. -/
inductive Mode where
  | code (state : Quoting) (before : Option Char)
  | inside

/-- The mode in which a line is entered. -/
def Mode.entry (conv : Convention) (continued : Bool) : Mode :=
  if continued && conv.isBlock then .inside else .code {} none

theorem Mode.entry_of_line {conv : Convention} (hline : conv.isBlock = false) (continued : Bool) :
    Mode.entry conv continued = .code {} none := by
  simp [Mode.entry, hline]

/-- A text, scanned from a mode on, has these marks and is left with a comment open or not. -/
inductive Scans (conv : Convention) : Mode → Text → List Bool → Bool → Prop where
  | done {state : Quoting} {before : Option Char} : Scans conv (.code state before) [] [] false
  | code {state next : Quoting} {before : Option Char} {c : Char} {rest : Text}
      {marks : List Bool} {leftOpen : Bool} :
      advance conv state before c rest = some next →
      Scans conv (.code next (some c)) rest marks leftOpen →
      Scans conv (.code state before) (c :: rest) (false :: marks) leftOpen
  | line {state : Quoting} {before : Option Char} {c : Char} {rest : Text} :
      advance conv state before c rest = none →
      conv.isBlock = false →
      Scans conv (.code state before) (c :: rest) (List.replicate (rest.length + 1) true) false
  | block {state : Quoting} {before : Option Char} {c : Char} {rest body : Text}
      {marks : List Bool} {leftOpen : Bool} :
      advance conv state before c rest = none →
      conv.isBlock = true →
      c :: rest = conv.mark ++ body →
      Scans conv .inside body marks leftOpen →
      Scans conv (.code state before) (c :: rest)
        (List.replicate conv.mark.length true ++ marks) leftOpen
  | unclosed {text : Text} :
      lengthToClose? conv text = none →
      Scans conv .inside text (List.replicate text.length true) true
  | closed {text body rest : Text} {marks : List Bool} {leftOpen : Bool} :
      text = body ++ rest →
      lengthToClose? conv body = some body.length →
      Scans conv (.code {} body.getLast?) rest marks leftOpen →
      Scans conv .inside text (List.replicate body.length true ++ marks) leftOpen

theorem closing_ne_of_isBlock {conv : Convention} (h : conv.isBlock = true) :
    conv.closing ≠ [] := by
  intro hnil
  simp [Convention.isBlock, hnil] at h

theorem lengthToClose?_append {conv : Convention} {body : Text} {n : Nat}
    (h : lengthToClose? conv body = some n) (rest : Text) :
    lengthToClose? conv (body ++ rest) = some n := by
  obtain ⟨i, hi, rfl⟩ := Option.map_eq_some_iff.mp h
  rw [lengthToClose?, Text.offsetOf?_append_of_some hi]
  rfl

/-- The part of a text up to the end of the first closing delimiter. -/
theorem exists_of_lengthToClose? {conv : Convention} {t : Text} {n : Nat}
    (h : lengthToClose? conv t = some n) :
    ∃ body rest, t = body ++ rest ∧ body.length = n ∧ lengthToClose? conv body = some n := by
  obtain ⟨i, hi, rfl⟩ := Option.map_eq_some_iff.mp h
  obtain ⟨front, rest, rfl, hfront⟩ := Text.exists_of_offsetOf? hi
  refine ⟨front ++ conv.closing, rest, by simp, by simp [hfront], ?_⟩
  rw [← List.append_assoc] at hi
  have hbody := Text.offsetOf?_of_append hi (by simp [hfront])
  rw [lengthToClose?, hbody]
  rfl

namespace Scans

variable {conv : Convention} {mode : Mode} {t : Text} {marks marks' : List Bool}
  {leftOpen leftOpen' : Bool}

theorem length_marks (h : Scans conv mode t marks leftOpen) : marks.length = t.length := by
  induction h with
  | done => rfl
  | code _ _ ih => simpa using ih
  | line => simp
  | block _ _ htext _ ih => rw [htext, List.length_append, List.length_append, ih]; simp
  | unclosed => simp
  | closed htext _ _ ih => rw [htext, List.length_append, List.length_append, ih]; simp

theorem unique
    (h : Scans conv mode t marks leftOpen)
    (h' : Scans conv mode t marks' leftOpen') :
    marks = marks' ∧ leftOpen = leftOpen' := by
  induction h generalizing marks' leftOpen' with
  | done =>
      cases h'
      exact ⟨rfl, rfl⟩
  | code hnext _ ih =>
      cases h' with
      | code hnext' hrest =>
          rw [hnext, Option.some.injEq] at hnext'
          subst hnext'
          exact ⟨congrArg _ (ih hrest).1, (ih hrest).2⟩
      | line hnone => simp [hnext] at hnone
      | block hnone => simp [hnext] at hnone
  | line hnone hline =>
      cases h' with
      | code hnext => simp [hnone] at hnext
      | line => exact ⟨rfl, rfl⟩
      | block _ hblock => simp [hline] at hblock
  | block hnone hblock htext _ ih =>
      cases h' with
      | code hnext => simp [hnone] at hnext
      | line _ hline => simp [hblock] at hline
      | block _ _ htext' hrest =>
          have hbody := List.append_cancel_left (htext.symm.trans htext')
          subst hbody
          exact ⟨congrArg _ (ih hrest).1, (ih hrest).2⟩
  | unclosed hnone =>
      cases h' with
      | unclosed => exact ⟨rfl, rfl⟩
      | closed htext hclosed =>
          rw [htext, lengthToClose?_append hclosed] at hnone
          cases hnone
  | closed htext hclosed _ ih =>
      cases h' with
      | unclosed hnone =>
          rw [htext, lengthToClose?_append hclosed] at hnone
          cases hnone
      | @closed _ _ rest' _ _ htext' hclosed' hrest =>
          have hlengths := lengthToClose?_append hclosed' rest'
          rw [← htext', htext, lengthToClose?_append hclosed, Option.some.injEq] at hlengths
          obtain ⟨rfl, rfl⟩ := List.append_inj (htext.symm.trans htext') hlengths
          exact ⟨congrArg _ (ih hrest).1, (ih hrest).2⟩

end Scans

/-! ## The scanning function -/

section scan

variable {conv : Convention}

theorem getLast?_cons_or (c : Char) (t : Text) (before : Option Char) :
    (c :: t).getLast?.or before = t.getLast?.or (some c) := by
  rw [List.getLast?_cons]
  cases t.getLast? <;> rfl

theorem spells_region {offset n : Nat} (hn : 0 < n) :
    Spells offset (List.replicate n true) [⟨offset, n⟩] := by
  have h : Spells offset (List.replicate n true ++ []) [⟨offset, n⟩] := .region hn (.nil _)
  rwa [List.append_nil] at h

/-- The length of a region that is closed, cut into its delimiter and the rest of it. -/
theorem exists_of_regionLength? {t : Text} {n : Nat}
    (hmark : conv.mark <+: t)
    (h : regionLength? conv t = some n) :
    ∃ body rest, t = conv.mark ++ (body ++ rest) ∧ n = conv.mark.length + body.length ∧
      lengthToClose? conv body = some body.length := by
  obtain ⟨more, rfl⟩ := hmark
  rw [regionLength?, List.drop_left] at h
  obtain ⟨k, hk, rfl⟩ := Option.map_eq_some_iff.mp h
  obtain ⟨body, rest, rfl, rfl, hbody⟩ := exists_of_lengthToClose? hk
  exact ⟨body, rest, rfl, rfl, hbody⟩

theorem exists_of_regionLength?_none {t : Text}
    (hmark : conv.mark <+: t)
    (h : regionLength? conv t = none) :
    ∃ body, t = conv.mark ++ body ∧ lengthToClose? conv body = none := by
  obtain ⟨body, rfl⟩ := hmark
  rw [regionLength?, List.drop_left, Option.map_eq_none_iff] at h
  exact ⟨body, rfl, h⟩

theorem body_ne_nil {body : Text}
    (hblock : conv.isBlock = true)
    (hbody : lengthToClose? conv body = some body.length) : body ≠ [] := by
  rintro rfl
  simp [lengthToClose?, Text.offsetOf?, closing_ne_of_isBlock hblock] at hbody

theorem scanFrom_of_advance {state next : Quoting} {before : Option Char} {offset : Nat} {c : Char}
    {rest : Text} (h : advance conv state before c rest = some next) :
    scanFrom conv 0 state before offset (c :: rest) =
      scanFrom conv 0 next (some c) (offset + 1) rest := by
  unfold advance at h
  rw [scanFrom]
  cases hstep : state.step before c rest with
  | some state' => simp_all
  | none => cases hopens : opensAt conv before (c :: rest) <;> simp_all

theorem exists_scans_of_scanFrom (skip : Nat) (state : Quoting) (before : Option Char)
    (offset : Nat) (text : Text) :
    ∃ marks,
      Scans conv (.code state ((text.take skip).getLast?.or before)) (text.drop skip) marks
        (scanFrom conv skip state before offset text).leftOpen ∧
      Spells (offset + skip) marks (scanFrom conv skip state before offset text).spans := by
  induction text generalizing skip state before offset with
  | nil => exact ⟨[], by simpa [scanFrom] using .done, by simpa [scanFrom] using .nil _⟩
  | cons c rest ih =>
      cases skip with
      | succ skip =>
          obtain ⟨marks, hscans, hspells⟩ := ih skip state (some c) (offset + 1)
          rw [Nat.add_assoc, Nat.add_comm 1] at hspells
          refine ⟨marks, ?_, hspells⟩
          rwa [List.take_succ_cons, getLast?_cons_or]
      | zero =>
          -- The cases are those of the function: code, a comment to the end of the line, a block
          -- that is left open, and a block that is closed.
          cases hadvance : advance conv state before c rest with
          | some next =>
              obtain ⟨marks, hscans, hspells⟩ := ih 0 next (some c) (offset + 1)
              rw [scanFrom_of_advance hadvance]
              exact ⟨false :: marks, .code hadvance (by simpa using hscans), .bare hspells⟩
          | none =>
              have hfront := prefix_of_advance hadvance
              obtain ⟨hstep, hopens⟩ := advance_eq_none_iff.mp hadvance
              rw [scanFrom, hstep]
              simp only [hopens, if_true]
              cases hblock : conv.isBlock with
              | false =>
                  exact ⟨_, .line hadvance hblock, spells_region (by omega)⟩
              | true =>
                  cases hregion : regionLength? conv (c :: rest) with
                  | none =>
                      obtain ⟨body, htext, hbody⟩ := exists_of_regionLength?_none hfront hregion
                      refine ⟨_, .block hadvance hblock htext (.unclosed hbody), ?_⟩
                      have hlength := congrArg List.length htext
                      rw [List.length_cons, List.length_append] at hlength
                      rw [List.replicate_append_replicate, ← hlength]
                      exact spells_region (by omega)
                  | some n =>
                      obtain ⟨body, later, htext, hn, hbody⟩ :=
                        exists_of_regionLength? hfront hregion
                      obtain ⟨m, rfl⟩ : ∃ m, n = m + 1 := by
                        have := List.length_pos_iff.mpr (body_ne_nil hblock hbody)
                        exact ⟨n - 1, by omega⟩
                      obtain ⟨marks, hscans, hspells⟩ := ih m {} (some c) (offset + 1)
                      have hlater : rest.drop m = later := by
                        rw [← List.drop_succ_cons (a := c), htext, ← List.append_assoc, hn,
                          ← List.length_append, List.drop_left]
                      have hbefore : (rest.take m).getLast?.or (some c) = body.getLast? := by
                        rw [← getLast?_cons_or c _ none, ← List.take_succ_cons, htext,
                          ← List.append_assoc, hn, ← List.length_append, List.take_left,
                          List.getLast?_append_of_ne_nil _ (body_ne_nil hblock hbody)]
                        simp
                      rw [hlater, hbefore] at hscans
                      refine ⟨_, .block hadvance hblock htext (.closed rfl hbody hscans), ?_⟩
                      rw [← List.append_assoc, List.replicate_append_replicate, ← hn]
                      refine .region (by omega) ?_
                      rwa [Nat.add_assoc, Nat.add_comm 1] at hspells

/-- What the scan of a line finds: regions that spell out the marks of the line. -/
theorem exists_scans (conv : Convention) (continued : Bool) (text : Text) :
    ∃ marks,
      Scans conv (.entry conv continued) text marks (scan conv continued text).leftOpen ∧
      Spells 0 marks (scan conv continued text).spans := by
  unfold scan Mode.entry
  cases hentry : continued && conv.isBlock with
  | false =>
      obtain ⟨marks, hscans, hspells⟩ := exists_scans_of_scanFrom 0 {} none 0 text
      exact ⟨marks, by simpa using hscans, by simpa using hspells⟩
  | true =>
      rw [Bool.and_eq_true] at hentry
      cases hclose : lengthToClose? conv text with
      | none =>
          refine ⟨_, by simpa using .unclosed hclose, ?_⟩
          cases text with
          | nil => exact .nil 0
          | cons c rest => exact spells_region (by simp)
      | some n =>
          obtain ⟨body, rest, rfl, rfl, hbody⟩ := exists_of_lengthToClose? hclose
          obtain ⟨marks, hscans, hspells⟩ :=
            exists_scans_of_scanFrom body.length {} none 0 (body ++ rest)
          rw [List.take_left, List.drop_left, Option.or_none] at hscans
          refine ⟨_, by simpa using .closed rfl hbody hscans, ?_⟩
          have hpos := List.length_pos_iff.mpr (body_ne_nil hentry.2 hbody)
          exact .region hpos hspells

theorem exists_scans_code (conv : Convention) (state : Quoting) (before : Option Char)
    (text : Text) : ∃ marks leftOpen, Scans conv (.code state before) text marks leftOpen := by
  obtain ⟨marks, hscans, _⟩ := exists_scans_of_scanFrom 0 state before 0 text
  exact ⟨marks, _, by simpa using hscans⟩

end scan

theorem head?_marks_of_inside {conv : Convention} {c : Char} {rest : Text} {marks : List Bool}
    {leftOpen : Bool} (hblock : conv.isBlock = true)
    (h : Scans conv .inside (c :: rest) marks leftOpen) : marks.head? = some true := by
  cases h with
  | unclosed => rfl
  | closed _ hclosed =>
      obtain ⟨d, body, rfl⟩ := List.exists_cons_of_ne_nil (body_ne_nil hblock hclosed)
      rfl

/-! ## Blanks at the ends of a line -/

section blanks

variable {conv : Convention} {state : Quoting} {before before' : Option Char} {mode : Mode}
  {t lead z : Text} {marks : List Bool} {leftOpen : Bool}

theorem any_isWord_of_all_isBlank (h : before.all Text.isBlank = true) :
    before.any Text.isWord = false := by
  cases before with
  | none => rfl
  | some c => exact Text.isWord_of_isBlank h

/-- The start of a line and a blank are the same to what comes behind them. -/
theorem advance_neutral (hsharp : conv.Sharp)
    (hbefore : before.all Text.isBlank = true)
    (hbefore' : before'.all Text.isBlank = true) {c : Char} {rest : Text} :
    advance conv state before c rest = advance conv state before' c rest := by
  refine advance_congr_before hsharp (fun _ _ => ?_) fun _ _ => ?_
  · rw [any_isWord_of_all_isBlank hbefore, any_isWord_of_all_isBlank hbefore']
  · rw [hbefore, hbefore']

theorem quote_notMem_of_allBlank (hz : Text.allBlank z) : '\'' ∉ z := by
  intro hmem
  have := Text.allBlank_iff.mp hz _ hmem
  revert this
  decide

theorem quote_mem_trimRight (t : Text) : '\'' ∈ t.trimRight ↔ '\'' ∈ t := by
  conv_rhs => rw [← Text.trimRight_eq t, List.mem_append]
  simp [quote_notMem_of_allBlank (Text.allBlank_takeTail t)]

theorem isPrefixOf_trail {piece : Text}
    (hpiece : ∀ x ∈ piece, Text.isBlank x = false) (hz : Text.allBlank z) :
    piece.isPrefixOf (t ++ z) = piece.isPrefixOf t := by
  cases z with
  | nil => rw [List.append_nil]
  | cons c z =>
      rw [Text.allBlank_cons, Bool.and_eq_true] at hz
      exact Text.isPrefixOf_append_blank hpiece hz.1

theorem advance_trail (hsharp : conv.Sharp) (hz : Text.allBlank z) {c : Char} :
    advance conv state before c (t ++ z) = advance conv state before c t := by
  refine advance_congr_rest ?_ (isPrefixOf_trail (t := c :: t) hsharp.mark_ink hz)
  simp [quote_notMem_of_allBlank hz]

theorem closing_ne_of_unclosed (h : lengthToClose? conv t = none) : conv.closing ≠ [] := by
  intro hnil
  cases t <;> simp [lengthToClose?, Text.offsetOf?, hnil] at h

namespace Scans

theorem congr_before
    (hadvance : ∀ c rest, t = c :: rest →
      advance conv state before c rest = advance conv state before' c rest)
    (h : Scans conv (.code state before) t marks leftOpen) :
    Scans conv (.code state before') t marks leftOpen := by
  cases h with
  | done => exact .done
  | code hnext hrest => exact .code (hadvance _ _ rfl ▸ hnext) hrest
  | line hnone hline => exact .line (hadvance _ _ rfl ▸ hnone) hline
  | block hnone hblock htext hbody =>
      exact .block (hadvance _ _ rfl ▸ hnone) hblock htext hbody

theorem neutral (hsharp : conv.Sharp)
    (hbefore : before.all Text.isBlank = true)
    (hbefore' : before'.all Text.isBlank = true)
    (h : Scans conv (.code state before) t marks leftOpen) :
    Scans conv (.code state before') t marks leftOpen :=
  h.congr_before fun _ _ _ => advance_neutral hsharp hbefore hbefore'

theorem lead_code (hsharp : conv.Sharp)
    (hstate : state.escaped = false)
    (hbefore : before.all Text.isBlank = true)
    (hlead : Text.allBlank lead)
    (h : Scans conv (.code state none) t marks leftOpen) :
    Scans conv (.code state before) (lead ++ t) (List.replicate lead.length false ++ marks)
      leftOpen := by
  induction lead generalizing before with
  | nil => exact h.neutral hsharp rfl hbefore
  | cons c lead ih =>
      rw [Text.allBlank_cons, Bool.and_eq_true] at hlead
      have hnext : advance conv state before c (lead ++ t) = some state := by
        obtain ⟨quote, escaped⟩ := state
        rw [advance_blank hsharp hlead.1]
        simpa using hstate.symm
      exact .code hnext (ih hlead.1 hlead.2)

theorem lead_inside (hsharp : conv.Sharp)
    (hblock : conv.isBlock = true)
    (hlead : Text.allBlank lead)
    (h : Scans conv .inside t marks leftOpen) :
    Scans conv .inside (lead ++ t) (List.replicate lead.length true ++ marks) leftOpen := by
  have hne := closing_ne_of_isBlock hblock
  cases h with
  | unclosed hnone =>
      rw [List.replicate_append_replicate, ← List.length_append]
      refine .unclosed ?_
      rw [lengthToClose?, Option.map_eq_none_iff] at hnone ⊢
      rw [Text.offsetOf?_lead hne hsharp.closing_ink hlead, hnone]
      rfl
  | @closed _ body rest _ _ htext hclosed hrest =>
      rw [← List.append_assoc, List.replicate_append_replicate, ← List.length_append]
      refine .closed (by rw [htext, List.append_assoc]) ?_ ?_
      · obtain ⟨i, hi, hlength⟩ := Option.map_eq_some_iff.mp hclosed
        rw [lengthToClose?, Text.offsetOf?_lead hne hsharp.closing_ink hlead, hi]
        simp [← hlength, Nat.add_assoc]
      · rwa [List.getLast?_append_of_ne_nil _ (body_ne_nil hblock hclosed)]

/-- Blanks before a line belong to the comment that the line starts in, if it does. -/
theorem lead_entry (hsharp : conv.Sharp) {continued : Bool}
    (hlead : Text.allBlank lead)
    (h : Scans conv (.entry conv continued) t marks leftOpen) :
    Scans conv (.entry conv continued) (lead ++ t)
      (List.replicate lead.length (continued && conv.isBlock) ++ marks) leftOpen := by
  unfold Mode.entry at h ⊢
  cases hentry : continued && conv.isBlock with
  | false =>
      rw [hentry] at h
      exact lead_code hsharp rfl rfl hlead h
  | true =>
      rw [hentry] at h
      exact lead_inside hsharp (Bool.and_eq_true_iff.mp hentry).2 hlead h

theorem blanks (hsharp : conv.Sharp) (hz : Text.allBlank z) :
    Scans conv (.code state before) z (List.replicate z.length false) false := by
  induction z generalizing state before with
  | nil => exact .done
  | cons c z ih =>
      rw [Text.allBlank_cons, Bool.and_eq_true] at hz
      exact .code (advance_blank hsharp hz.1) (ih hz.2)

theorem trail (hsharp : conv.Sharp)
    (hz : Text.allBlank z)
    (h : Scans conv mode t marks leftOpen) :
    ∃ mark, Scans conv mode (t ++ z) (marks ++ List.replicate z.length mark) leftOpen := by
  induction h with
  | done => exact ⟨false, blanks hsharp hz⟩
  | code hnext _ ih =>
      obtain ⟨mark, ih⟩ := ih
      exact ⟨mark, .code ((advance_trail hsharp hz).trans hnext) ih⟩
  | line hnone hline =>
      refine ⟨true, ?_⟩
      have hline := Scans.line ((advance_trail hsharp hz).trans hnone) hline
      rwa [List.length_append, Nat.add_right_comm, ← List.replicate_append_replicate] at hline
  | block hnone hblock htext _ ih =>
      obtain ⟨mark, ih⟩ := ih
      refine ⟨mark, ?_⟩
      rw [List.append_assoc, List.cons_append]
      refine .block ((advance_trail hsharp hz).trans hnone) hblock ?_ ih
      rw [← List.cons_append, htext, List.append_assoc]
  | unclosed hnone =>
      refine ⟨true, ?_⟩
      rw [List.replicate_append_replicate, ← List.length_append]
      refine .unclosed ?_
      have hne := closing_ne_of_unclosed hnone
      rwa [lengthToClose?, Text.offsetOf?_tail hne hsharp.closing_ink hz]
  | closed htext hclosed _ ih =>
      obtain ⟨mark, ih⟩ := ih
      refine ⟨mark, ?_⟩
      rw [List.append_assoc]
      exact .closed (by rw [htext, List.append_assoc]) hclosed ih

end Scans

end blanks

end Comment
end AsmColumns
