import AsmColumns.Proofs.Edit.Splice
import AsmColumns.Proofs.Session.Reachable
import AsmColumns.Session.Typing

/-!
# No keystroke loses or moves text

A host passes a key to the session with the line that holds the cursor and the cursor's column in
it, and carries out the actions it gets back on the whole buffer.  What the host says about the
line above, whether a comment is left open there and how that line is read, need not even be true:
whatever it says, and however the session remembers the line, the text comes to no harm.
-/

namespace AsmColumns

open Edit (Action Buffer inserted)

namespace Session

/-- What a key has done: the actions carried out, none if it failed, and the buffer and the session
behind them. -/
structure Struck where
  actions : List Action
  buffer : Buffer
  session : Session

def struck (s : Session) (buffer : Buffer) (stroke : Stroke) : Struck :=
  match s.strike buffer stroke with
  | (.ok (actions, next), t) => ⟨actions, next, t⟩
  | (.error _, t) => ⟨[], buffer, t⟩

/-- Strikes keys one after the other. -/
def strikeAll (s : Session) (buffer : Buffer) : List Stroke → Buffer × Session
  | [] => (buffer, s)
  | stroke :: rest =>
      let struck := s.struck buffer stroke
      struck.session.strikeAll struck.buffer rest

/-! ## What a key does -/

theorem struck_of_runChecked {s : Session} {buffer next : Buffer} {stroke : Stroke}
    {actions : List Action} (hactions : (s.strokeActions buffer stroke).1 = .ok actions)
    (hrun : buffer.runChecked actions = .ok next) :
    s.struck buffer stroke = ⟨actions, next, (s.strokeActions buffer stroke).2⟩ := by
  rw [struck, strike]
  rcases hkey : s.strokeActions buffer stroke with ⟨outcome, t⟩
  rw [hkey] at hactions
  obtain rfl : outcome = .ok actions := hactions
  simp only [hrun]

theorem struck_of_failure {s : Session} {buffer : Buffer} {stroke : Stroke}
    (h : ∀ actions next, (s.strokeActions buffer stroke).1 = .ok actions →
      buffer.runChecked actions ≠ .ok next) :
    s.struck buffer stroke = ⟨[], buffer, (s.strokeActions buffer stroke).2⟩ := by
  rw [struck, strike]
  rcases hkey : s.strokeActions buffer stroke with ⟨outcome, t⟩
  rw [hkey] at h
  cases outcome with
  | error f => rfl
  | ok actions =>
      cases hrun : buffer.runChecked actions with
      | error e => simp only [hrun]
      | ok next => exact absurd hrun (h actions next rfl)

/-- A key carries out its own actions, or it does nothing. -/
theorem struck_cases (s : Session) (buffer : Buffer) (stroke : Stroke) :
    (∃ actions next, (s.strokeActions buffer stroke).1 = .ok actions ∧
      buffer.runChecked actions = .ok next ∧
      s.struck buffer stroke = ⟨actions, next, (s.strokeActions buffer stroke).2⟩) ∨
    s.struck buffer stroke = ⟨[], buffer, (s.strokeActions buffer stroke).2⟩ := by
  by_cases h : ∃ actions next, (s.strokeActions buffer stroke).1 = .ok actions ∧
      buffer.runChecked actions = .ok next
  · obtain ⟨actions, next, hactions, hrun⟩ := h
    exact .inl ⟨actions, next, hactions, hrun, struck_of_runChecked hactions hrun⟩
  · right
    apply struck_of_failure
    intro actions next hactions hrun
    exact h ⟨actions, next, hactions, hrun⟩

/-! ## One key -/

theorem settings_readAbove (s : Session) (buffer : Buffer) :
    (s.readAbove buffer).2.settings = s.settings := by
  rw [readAbove]
  split <;> rfl

theorem settings_keyActions (s : Session) (buffer : Buffer) (above : Above) (key : TypedKey) :
    (s.keyActions buffer above key).2.settings = s.settings := by
  cases key with
  | space | colon => exact settings_insideIf ..
  | comment =>
      simp only [keyActions, comment]
      split <;> rfl
  | hash | newline | tab | left | home | literal => rfl

theorem settings_strokeActions (s : Session) (buffer : Buffer) (stroke : Stroke) :
    (s.strokeActions buffer stroke).2.settings = s.settings := by
  rw [strokeActions]
  split
  · exact settings_keyActions ..
  · exact (settings_keyActions ..).trans (settings_readAbove s buffer)

theorem settings_struck (s : Session) (buffer : Buffer) (stroke : Stroke) :
    (s.struck buffer stroke).session.settings = s.settings := by
  have hsettings := settings_strokeActions s buffer stroke
  rcases struck_cases s buffer stroke with ⟨actions, next, -, -, hstruck⟩ | hstruck <;>
    rwa [hstruck]

/-- The actions of every key splice their text in at the cursor. -/
theorem splices_keyActions {s : Session} (hs : s.settings.Valid) {buffer : Buffer}
    (hbuffer : buffer.InRange) {above : Above} {key : TypedKey} {actions : List Action}
    (hactions : (s.keyActions buffer above key).1 = .ok actions) : buffer.Splices actions := by
  obtain ⟨upper, left, right, lower, hat⟩ := hbuffer.exists_at
  rw [keyActions.eq_def, hat.line_eq, hat.column_eq] at hactions
  cases key with
  | space =>
      obtain rfl := eq_of_noted ((space_fst ..).symm.trans hactions)
      exact Edit.splices_space hat hs _
  | colon =>
      obtain rfl := eq_of_noted ((colon_fst ..).symm.trans hactions)
      exact Edit.splices_colon hat hs _
  | hash =>
      obtain rfl := eq_of_noted hactions
      exact Edit.splices_hash hat
  | comment =>
      simp only [comment] at hactions
      split at hactions
      · cases hactions
      · next delimiter hdelimiter =>
        obtain rfl := eq_of_noted hactions
        exact Edit.splices_delimiter hat _ _ _ _
  | newline =>
      obtain rfl := eq_of_noted hactions
      exact Edit.splices_newline hat hs
  | tab =>
      cases hactions
      exact Edit.splices_indent hat
        (Layout.column_whole_nonneg _ _ _ hs.width_pos hs.column_nonneg _)
  | left =>
      cases hactions
      have hcolumn : max 0 ((left.length : Int) - 1) = (left.length - 1 : Nat) := by omega
      rw [hcolumn]
      exact Edit.splices_moveBack hat (Nat.sub_le ..)
  | home =>
      cases hactions
      exact Edit.splices_moveBack hat (Nat.zero_le _)
  | literal text =>
      cases hactions
      exact Edit.splices_insertText hat text

theorem splices_strokeActions {s : Session} (hs : s.settings.Valid) {buffer : Buffer}
    (hbuffer : buffer.InRange) {stroke : Stroke} {actions : List Action}
    (hactions : (s.strokeActions buffer stroke).1 = .ok actions) : buffer.Splices actions := by
  rw [strokeActions] at hactions
  split at hactions
  · exact splices_keyActions hs hbuffer hactions
  · have hbehind : (s.readAbove buffer).2.settings.Valid := by rwa [settings_readAbove]
    exact splices_keyActions hbehind hbuffer hactions

theorem strokeActions_hash (s : Session) (buffer : Buffer) (said : Option Above) :
    (s.strokeActions buffer { key := .hash, said }).1 =
      noted (Edit.hashKey buffer.line buffer.column) := by
  cases said <;> rfl

/-- What one key does to a buffer. -/
theorem splices_struck {s : Session} (hs : s.settings.Valid) {buffer : Buffer}
    (hbuffer : buffer.InRange) (stroke : Stroke) :
    let struck := s.struck buffer stroke
    buffer.Splices struck.actions ∧ struck.buffer = buffer.run struck.actions := by
  intro struck
  rcases struck_cases s buffer stroke with ⟨actions, next, hactions, hrun, hstruck⟩ | hstruck
  · simp only [struck, hstruck]
    exact ⟨splices_strokeActions hs hbuffer hactions, (Buffer.run_of_runChecked hrun).symm⟩
  · simp only [struck, hstruck]
    exact ⟨⟨Buffer.Spliced.refl hbuffer, trivial⟩, rfl⟩

/-! ## Every run of keys -/

theorem strikeAll_inRange {s : Session} (hs : s.settings.Valid) {buffer : Buffer}
    (hbuffer : buffer.InRange) (strokes : List Stroke) :
    (s.strikeAll buffer strokes).1.InRange ∧
      (s.strikeAll buffer strokes).2.settings.Valid := by
  induction strokes generalizing s buffer with
  | nil => exact ⟨hbuffer, hs⟩
  | cons stroke rest ih =>
      obtain ⟨hsplices, hrun⟩ := splices_struck hs hbuffer stroke
      apply ih
      · rw [settings_struck]
        exact hs
      · rw [hrun]
        exact hsplices.spliced.inRange

/-- After any run of keys, the next key splices what it inserts in at the cursor: the cursor stays
in the text, the lines that do not hold the cursor stay as they are, the ink of the buffer is the
old ink with the inserted ink at the cursor, and every character that is deleted is a blank of the
cursor's line.  What is carried out are the actions of the key, and nothing if the key gives none or
they cannot be carried out. -/
theorem strike_splices_after_strikeAll (s : Session) (hs : s.settings.Valid) (buffer : Buffer)
    (hbuffer : buffer.InRange) (strokes : List Stroke) (stroke : Stroke) :
    let here := (s.strikeAll buffer strokes).1
    let session := (s.strikeAll buffer strokes).2
    let struck := session.struck here stroke
    here.Spliced (inserted struck.actions) struck.buffer ∧ here.DeletesBlanks struck.actions ∧
      (∀ actions next, (session.strokeActions here stroke).1 = .ok actions →
        here.runChecked actions = .ok next →
          struck.actions = actions ∧ struck.buffer = next) ∧
      ((∀ actions next, (session.strokeActions here stroke).1 = .ok actions →
          here.runChecked actions ≠ .ok next) →
        struck.actions = [] ∧ struck.buffer = here) := by
  intro here session struck
  obtain ⟨hrange, hvalid⟩ := strikeAll_inRange hs hbuffer strokes
  obtain ⟨hsplices, hrun⟩ := splices_struck hvalid hrange stroke
  refine ⟨?_, hsplices.deletesBlanks, ?_, ?_⟩
  · rw [show struck.buffer = here.run struck.actions from hrun]
    exact hsplices.spliced
  · intro actions next hactions hnext
    have hstruck : struck = _ := struck_of_runChecked hactions hnext
    simp [hstruck]
  · intro hfails
    have hstruck : struck = _ := struck_of_failure hfails
    simp [hstruck]

/-- A hash in the second line, behind three blanks of which the last was typed: the blanks go and
the hash stands at the margin. -/
theorem strike_splices_hash_behind_blanks :
    let s := ofSettings {}
    let buffer : Buffer := ⟨"nop\n  x".toList, 6⟩
    let strokes : List Stroke := [{ key := .literal [' '] }]
    let here := (s.strikeAll buffer strokes).1
    let struck := (s.strikeAll buffer strokes).2.struck here { key := .hash }
    s.settings.Valid ∧ buffer.InRange ∧ here = ⟨"nop\n   x".toList, 7⟩ ∧
      struck.actions = [.deleteRange 0 3, .insertChar ['#']] ∧
      struck.buffer = ⟨"nop\n#x".toList, 5⟩ ∧
      here.Spliced ['#'] struck.buffer ∧ here.DeletesBlanks struck.actions := by
  intro s buffer strokes
  have hvalid : s.settings.Valid := Settings.valid_default
  have hrange : buffer.InRange := by decide
  have hhere : (s.strikeAll buffer strokes).1 = ⟨"nop\n   x".toList, 7⟩ := rfl
  have hkey : Edit.hashKey (Buffer.line ⟨"nop\n   x".toList, 7⟩)
      (Buffer.column ⟨"nop\n   x".toList, 7⟩) = [.deleteRange 0 3, .insertChar ['#']] := rfl
  have hwritable : ∀ action ∈ [Action.deleteRange 0 3, .insertChar ['#']],
      action.isWritable = true := by decide +kernel
  have hall := strike_splices_after_strikeAll s hvalid buffer hrange strokes { key := .hash }
  dsimp only at hall ⊢
  -- What is struck is looked at through the theorem only, not computed.
  generalize (s.strikeAll buffer strokes).2.struck _ { key := .hash } = struck at hall ⊢
  rw [strokeActions_hash, hhere, hkey, noted_eq_ok hwritable] at hall
  obtain ⟨hspliced, hdeletes, hown, -⟩ := hall
  obtain ⟨hactions, hbuffer⟩ := hown _ _ rfl rfl
  rw [hactions] at hspliced
  rw [hhere]
  exact ⟨hvalid, hrange, rfl, hactions, hbuffer, hspliced, hdeletes⟩

end Session
end AsmColumns
