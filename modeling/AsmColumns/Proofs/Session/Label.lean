import AsmColumns.Proofs.Edit.Outcome
import AsmColumns.Proofs.Layout.Lines
import AsmColumns.Proofs.Session.Position

/-!
# Labels made by the colon key

Behind a word that has nothing but blanks around it, and outside a comment, the colon key makes a
label of the word: the label goes to the margin and the rest of the line to the next field, in the
same line or in a new one.  Spaces at the start of the rest count towards the way there.  Anywhere
else the key inserts its colon and nothing else.  If the column of the next field cannot be written
out, the key fails.
-/

namespace AsmColumns

open Line (Reading isLabelChar)

/-! ## The word before the cursor -/

namespace Edit

/-- A word that ends before the cursor, outside the comments of the line and with nothing but blanks
between it and the start of the line and between it and the cursor. -/
structure IsLabelWord (r : Reading) (cursor : Nat) (word : Text) : Prop where
  exists_blanks : ∃ lead trail, Text.allBlank lead = true ∧ Text.allBlank trail = true ∧
    r.text.take cursor = lead ++ word ++ trail
  ne_nil : word ≠ []
  all_label : ∀ c ∈ word, isLabelChar c = true
  outside : r.isCommentAt (cursor - 1) = false

theorem IsLabelWord.exists_lead {r : Reading} {cursor : Nat} {word : Text}
    (h : IsLabelWord r cursor word) :
    ∃ lead trail, r.text.take cursor = lead ++ word ++ trail ∧
      labelWord? (r.text.take cursor) = some ⟨lead.length, word.length⟩ := by
  obtain ⟨lead, trail, hlead, htrail, htake⟩ := h.exists_blanks
  refine ⟨lead, trail, htake, ?_⟩
  rw [htake]
  exact labelWord?_of_word hlead htrail h.ne_nil h.all_label

section word

variable {r : Reading} {cursor : Nat} (hcursor : cursor ≤ r.text.length)
include hcursor

theorem insideComment_eq :
    insideComment r cursor = (decide (0 < cursor) && r.isCommentAt (cursor - 1)) := by
  cases cursor with
  | zero => rfl
  | succ offset =>
      have hlt : offset < r.text.length := hcursor
      have hwalk : Comment.commentAt? offset [r] = some (r.isCommentAt offset) := by
        rw [Comment.commentAt?, if_pos hlt]
      rw [insideComment, Int.natCast_succ, Comment.isInside_of_commentAt? hwalk]
      simp

theorem exists_isLabelWord (hinside : insideComment r cursor = false)
    {found : LabelWord} (hword : labelWord? (r.text.take cursor) = some found) :
    ∃ word, IsLabelWord r cursor word := by
  obtain ⟨lead, word, trail, htake, hlead, htrail, hne, hall, -⟩ :=
    labelWord?_eq_some hword
  have hpos : 0 < cursor := by
    cases cursor with
    | zero => simp [hne] at htake
    | succ offset => exact Nat.succ_pos offset
  rw [insideComment_eq hcursor, decide_eq_true hpos, Bool.true_and] at hinside
  exact ⟨word, ⟨lead, trail, hlead, htrail, htake⟩, hne, hall, hinside⟩

theorem plain_of_forall_not (hnone : ∀ word, ¬ IsLabelWord r cursor word) :
    labelWord? (r.text.take cursor) = none ∨ insideComment r cursor = true := by
  cases hinside : insideComment r cursor with
  | true => exact .inr rfl
  | false =>
      left
      cases hword : labelWord? (r.text.take cursor) with
      | none => rfl
      | some found =>
          obtain ⟨word, hlabel⟩ := exists_isLabelWord hcursor hinside hword
          exact absurd hlabel (hnone word)

end word

end Edit

/-! ## The key -/

open Edit (Buffer IsLabelWord colonText insideComment jumpColumn)

namespace Session

variable {s : Session} {line word : Text} {cursor : Nat} {continued : Bool}

theorem Coherent.text_read (h : s.Coherent) (line : Text) (continued : Bool) :
    (s.read (some line) continued).1.text = line := by
  rw [h.read_eq, Settings.read_eq, Line.text_readText]

theorem colon_of_le (hcursor : cursor ≤ line.length) :
    (s.colon (some line) cursor continued).1 =
      noted (Edit.colonKey s.settings ((Edit.labelWord? (line.take cursor)).isSome &&
        insideComment (s.read (some line) continued).1 cursor) line cursor) := by
  have hclamp : Edit.clamp line cursor = cursor := by
    rw [Edit.clamp, Int.toNat_natCast]
    omega
  rw [colon_fst, Edit.colonAsks, hclamp]

theorem colon_of_word (h : s.Coherent) (hheld : (line.length : Int) ≤ Text.maxRun)
    (hcursor : cursor ≤ line.length)
    (hword : IsLabelWord (s.read (some line) continued).1 cursor word) :
    (s.colon (some line) cursor continued).1 =
      if Decimal.isWritable (jumpColumn s.settings (word ++ colonText s.settings)) then
        .ok (Edit.colonKey s.settings false line cursor)
      else .error .unwritable := by
  obtain ⟨lead, trail, htake, hfound⟩ := hword.exists_lead
  have hbound : cursor ≤ (s.read (some line) continued).1.text.length := by
    rwa [h.text_read]
  have hlength : (line.take cursor).length = cursor := List.length_take_of_le hcursor
  rw [h.text_read] at htake hfound
  obtain ⟨front, hkey, hfront⟩ : ∃ front : List Edit.Action,
      Edit.colonKey s.settings false (line.take cursor ++ line.drop cursor) _ = _ ∧ _ :=
    Edit.colonKey_of_word htake hfound
  rw [List.take_append_drop, hlength] at hkey
  have hall : front.all (·.isWritable) = true := List.all_eq_true.mpr (hfront (by omega))
  rw [colon_of_le hcursor, Edit.insideComment_eq hbound, hword.outside, Bool.and_false,
    Bool.and_false, noted_eq, hkey, List.all_append, hall, Bool.true_and, List.all_cons,
    List.all_nil, Bool.and_true]
  rfl

/-- What the colon key makes of a line: a label and the way on to the next field, if the column of
the field can be written out, or the line with a colon in it.  No text is longer than the longest
run of spaces, and neither is the line. -/
theorem colon_runChecked (hs : s.Reachable) {line : Text} (hline : '\n' ∉ line)
    (hheld : (line.length : Int) ≤ Text.maxRun) {cursor : Nat} (hcursor : cursor ≤ line.length)
    (continued : Bool) :
    let r := (s.read (some line) continued).1
    let rest := line.drop cursor
    let colon := colonText s.settings
    let stops := s.settings.stops
    let outcome := (s.colon (some line) cursor continued).1
    (∀ word, IsLabelWord r cursor word →
      let label := word ++ colon
      (Decimal.isWritable (jumpColumn s.settings label) = true →
        ∃ actions, outcome = .ok actions ∧
          Buffer.runChecked ⟨line, cursor⟩ actions =
            if s.settings.newlineAfterLabel then Buffer.gapped (label ++ ['\n']) stops.first rest
            else Buffer.gapped label (stops.nextStop label.length - label.length) rest) ∧
      (Decimal.isWritable (jumpColumn s.settings label) = false →
        outcome = .error .unwritable)) ∧
    ((∀ word, ¬ IsLabelWord r cursor word) →
      ∃ actions, outcome = .ok actions ∧
        Buffer.runChecked ⟨line, cursor⟩ actions =
          .ok ⟨line.take cursor ++ (colon ++ rest), cursor + colon.length⟩) := by
  intro r rest colon stops outcome
  have h := hs.coherent
  have htext : r.text = line := h.text_read line continued
  have hbound : cursor ≤ r.text.length := by
    rw [htext]
    exact hcursor
  have hat := Buffer.at_of_line hline hcursor
  have hlength : (line.take cursor).length = cursor := List.length_take_of_le hcursor
  constructor
  · intro word hword label
    have houtcome : outcome = _ := colon_of_word h hheld hcursor hword
    rw [houtcome]
    constructor
    · intro hjump
      obtain ⟨lead, trail, htake, hfound⟩ := hword.exists_lead
      rw [htext] at htake hfound
      have hrun := Edit.runChecked_colon_of_word hat h.valid htake hfound
      rw [List.take_append_drop, hlength, List.append_nil] at hrun
      exact ⟨_, if_pos hjump, hrun⟩
    · intro hjump
      exact if_neg (Bool.eq_false_iff.mp hjump)
  · intro hnone
    have hplain : Edit.labelWord? (line.take cursor) = none ∨
        ((Edit.labelWord? (line.take cursor)).isSome && insideComment r cursor) = true := by
      have hplain := Edit.plain_of_forall_not hbound hnone
      rw [htext] at hplain
      cases hword : Edit.labelWord? (line.take cursor) with
      | none => exact .inl rfl
      | some found =>
          rw [hword] at hplain
          exact .inr (hplain.resolve_left nofun)
    have hkey : Edit.colonKey s.settings _ (line.take cursor ++ line.drop cursor) _ = _ :=
      Edit.colonKey_of_plain hplain
    have hrun := Edit.runChecked_colon_of_plain (s := s.settings) hat hplain
    rw [List.take_append_drop, hlength] at hkey
    rw [List.take_append_drop, hlength, List.append_nil] at hrun
    refine ⟨_, (colon_of_le hcursor).trans (noted_eq_ok ?_), ?_⟩
    · rw [hkey]
      split <;> simp [Edit.Action.isWritable]
    · rw [hrun]
      simp [colon, rest, hcursor]

/-- The two spaces behind the word are part of the way to the next stop. -/
theorem colon_runChecked_reusing_spaces :
    let s := ofSettings {}
    let line := "  loop  mov".toList
    s.Reachable ∧ '\n' ∉ line ∧ (line.length : Int) ≤ Text.maxRun ∧ 6 ≤ line.length ∧
      IsLabelWord (s.read (some line) false).1 6 "loop".toList ∧
      ∃ actions, (s.colon (some line) 6 false).1 = .ok actions ∧
        Buffer.runChecked ⟨line, 6⟩ actions = .ok ⟨"loop:   mov".toList, 8⟩ := by
  intro s line
  have hs : s.Reachable := reachable_ofSettings Settings.valid_default
  have hread : (s.read (some line) false).1 = Settings.read {} false line :=
    hs.coherent.read_eq line false
  have hword : IsLabelWord (s.read (some line) false).1 6 "loop".toList := by
    rw [hread]
    exact ⟨⟨"  ".toList, [], by decide, by decide, by decide +kernel⟩, by decide,
      List.all_eq_true.mp (by decide), by decide +kernel⟩
  have htyped := (@colon_runChecked s hs line (by decide) (by decide) 6 (by decide) false).1
  obtain ⟨actions, hactions, hrun⟩ := (htyped _ hword).1 (by decide)
  exact ⟨hs, by decide, by decide, by decide, hword, actions, hactions, hrun⟩

/-- No text can hold the spaces before a stop that is past the longest run of them, and to one that
cannot be written out the key does not even go. -/
theorem colon_beyond_longest_run :
    (let s := ofSettings { tabStops := [2 * Text.maxRun] }
     s.Reachable ∧ IsLabelWord (s.read (some "loop".toList) false).1 4 "loop".toList ∧
      ∃ actions, (s.colon (some "loop".toList) 4 false).1 = .ok actions ∧
        Buffer.runChecked ⟨"loop".toList, 4⟩ actions = .error {}) ∧
    (let s := ofSettings { tabStops := [Decimal.leastUnwritable] }
     s.Reachable ∧ IsLabelWord (s.read (some "loop".toList) false).1 4 "loop".toList ∧
      (s.colon (some "loop".toList) 4 false).1 = .error .unwritable) := by
  have hword : ∀ {s : Session}, s.Coherent → s.settings.style = .lineSemicolon →
      IsLabelWord (s.read (some "loop".toList) false).1 4 "loop".toList := by
    intro s h hstyle
    rw [h.read_eq, Settings.read_eq, hstyle]
    exact ⟨⟨[], [], by decide, by decide, by decide +kernel⟩, by decide,
      List.all_eq_true.mp (by decide), by decide +kernel⟩
  constructor
  · intro s
    have hs : s.Reachable := reachable_ofSettings ⟨by decide, by decide, by decide, by decide⟩
    have hloop := hword hs.coherent rfl
    have houtcome : (s.colon (some "loop".toList) (4 : Nat) false).1 = _ :=
      colon_of_word hs.coherent (by decide) (by decide) hloop
    exact ⟨hs, hloop, _, houtcome.trans (if_pos (by decide +kernel)), by decide +kernel⟩
  · intro s
    have hs : s.Reachable := reachable_ofSettings
      ⟨by simpa using Decimal.leastUnwritable_nonneg, by simp, by decide, by decide⟩
    have hloop := hword hs.coherent rfl
    have houtcome : (s.colon (some "loop".toList) (4 : Nat) false).1 = _ :=
      colon_of_word hs.coherent (by decide) (by decide) hloop
    have hjump : jumpColumn s.settings ("loop".toList ++ colonText s.settings) =
        Decimal.leastUnwritable := by
      have hbehind : (5 : Int) < Decimal.leastUnwritable := by
        have hrun : (5 : Int) < Text.maxRun := by decide
        have hfar := Decimal.maxRun_lt_leastUnwritable
        omega
      change TabStops.nextStop ⟨[Decimal.leastUnwritable], 8⟩ (5 : Nat) = _
      simp [TabStops.nextStop, hbehind]
    refine ⟨hs, hloop, houtcome.trans (if_neg ?_)⟩
    rw [hjump, Decimal.isWritable_leastUnwritable]
    decide

end Session
end AsmColumns
