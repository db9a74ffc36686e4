import AsmColumns.Proofs.Line.Memory
import AsmColumns.Proofs.Settings.Draft
import AsmColumns.Session.Basic

/-!
# The sessions that can arise

A session starts from valid settings and changes by its operations only.  Every session that
arises so is coherent: its settings are valid, the tracker and the reader work with the convention
of the style in the settings, and the memory of the reader is sound.  A coherent session reads
lines as if it had no memory.

A key gives its actions if all of them can be written out, and fails if one cannot.
-/

namespace AsmColumns

open Comment (Convention Style)
open Line (Reading)

/-! ## Operations -/

/-- What can be asked of a session. -/
inductive Operation where
  | activateStyle (style : Style)
  | activate (name : Value)
  | configure (options : List (Value × Value))
  | read (line : Option Text) (continued : Bool)
  | readText (text : Text)
  | columnFor (line : Option Text) (continued : Bool)
  | layout (text : Text)
  | report (text : Text)
  | indentLine (line : Option Text) (continued : Bool)
  | space (line : Option Text) (cursor : Int) (continued : Bool)
  | colon (line : Option Text) (cursor : Int) (continued : Bool)
  | hash (line : Option Text) (cursor : Int)
  | comment (line : Option Text) (cursor : Int) (previous : Option Reading) (continued : Bool)
  | newline

namespace Session

/-- The session after an operation, whether it fails or not. -/
def perform (s : Session) : Operation → Session
  | .activateStyle style => s.activateStyle style
  | .activate name =>
      match s.activate name with
      | .ok t => t
      | .error _ => s
  | .configure options => (s.configure options).2
  | .read line continued => (s.read line continued).2
  | .readText text => (s.readText text).2
  | .columnFor line continued => (s.columnFor line continued).2
  | .layout text => (s.layout text).2
  | .report text => (s.report text).2
  | .indentLine line continued => (s.indentLine line continued).2
  | .space line cursor continued => (s.space line cursor continued).2
  | .colon line cursor continued => (s.colon line cursor continued).2
  | .hash _ _ => s
  | .comment line cursor previous continued => (s.comment line cursor previous continued).2
  | .newline => s

/-- The sessions that arise from valid settings by operations. -/
def Reachable (s : Session) : Prop :=
  ∃ (settings : Settings) (operations : List Operation),
    settings.Valid ∧ s = operations.foldl perform (ofSettings settings)

/-- What an operation can do to a session: nothing, another style, new settings, a line read or a
pass recorded. -/
inductive Step (s : Session) : Session → Prop where
  | stay : Step s s
  | switch (style : Style) : Step s (s.activateStyle style)
  | settle {options : List (Value × Value)} {settings : Settings}
      (h : s.settings.update options = .ok settings) :
      Step s { s.activateStyle settings.style with settings }
  | read (line : Option Text) (continued : Bool) : Step s (s.read line continued).2
  | pass (text : Text) : Step s (s.readText text).2

theorem step_insideIf (s : Session) (asked : Bool) (line : Text) (cursor : Int)
    (continued : Bool) : s.Step (s.insideIf asked line cursor continued).2 := by
  rw [insideIf]
  split
  · exact .read (some line) continued
  · exact .stay

theorem step_perform (s : Session) (operation : Operation) : s.Step (s.perform operation) := by
  cases operation with
  | activateStyle style => exact .switch style
  | activate name =>
      simp only [perform, activate]
      cases Comment.Tracker.styleNamed name with
      | error f => exact .stay
      | ok style => exact .switch style
  | configure options =>
      simp only [perform, configure]
      cases hsettings : s.settings.update options with
      | error e => exact .stay
      | ok settings => exact .settle hsettings
  | read line continued => exact .read line continued
  | readText text => exact .pass text
  | columnFor line continued => exact .read line continued
  | layout text => exact .pass text
  | report text => exact .pass text
  | indentLine line continued =>
      cases line with
      | none => exact .read none continued
      | some line => exact .read (some line) continued
  | space line cursor continued =>
      cases line with
      | none => exact .stay
      | some line => exact step_insideIf ..
  | colon line cursor continued =>
      cases line with
      | none => exact .stay
      | some line => exact step_insideIf ..
  | hash line cursor => exact .stay
  | comment line cursor previous continued =>
      cases line with
      | none => exact .stay
      | some line =>
          simp only [perform, comment]
          split
          · exact .stay
          · exact .read (some line) continued
  | newline => exact .stay

/-- What holds of every session at its start and is kept by every step holds of all sessions. -/
theorem Reachable.induction {P : Session → Prop}
    (start : ∀ settings : Settings, settings.Valid → P (ofSettings settings))
    (step : ∀ s t : Session, P s → s.Step t → P t) {s : Session} (h : s.Reachable) : P s := by
  obtain ⟨settings, operations, hvalid, rfl⟩ := h
  have hrun : ∀ t : Session, P t → P (operations.foldl perform t) := by
    induction operations with
    | nil => exact fun _ ht => ht
    | cons operation rest ih => exact fun t ht => ih _ (step t _ ht (step_perform t operation))
  exact hrun _ (start settings hvalid)

structure Coherent (s : Session) : Prop where
  valid : s.settings.Valid
  convention_eq : s.tracker.convention = .ofStyle s.settings.style
  reader_eq : s.reader.convention = s.tracker.convention
  sound : s.reader.Sound

theorem coherent_ofSettings {settings : Settings} (h : settings.Valid) :
    (ofSettings settings).Coherent :=
  ⟨h, rfl, rfl, Line.Reader.sound_of_empty _⟩

theorem style_ofStyle (style : Style) : (Convention.ofStyle style).style = style := by
  cases style <;> rfl

theorem convention_activate (s : Session) (style : Style)
    (h : s.tracker.convention = .ofStyle s.settings.style) :
    (s.tracker.activate style).convention = .ofStyle style := by
  rw [Comment.Tracker.activate]
  split
  · next hstyle =>
    rw [h, style_ofStyle] at hstyle
    rw [h, hstyle]
  · rfl

theorem Coherent.activateStyle {s : Session} (h : s.Coherent) (style : Style) :
    (s.activateStyle style).Coherent := by
  have hconv := convention_activate s style h.convention_eq
  refine ⟨⟨h.valid.stops_nonneg, h.valid.stops_sorted, h.valid.width_pos, h.valid.column_nonneg⟩,
    ?_, rfl, h.sound⟩
  simp only [Session.activateStyle, hconv, style_ofStyle]

theorem Coherent.settle {s : Session} {options : List (Value × Value)} {settings : Settings}
    (h : s.Coherent) (hsettings : s.settings.update options = .ok settings) :
    ({ s.activateStyle settings.style with settings } : Session).Coherent :=
  ⟨Settings.update_valid hsettings, convention_activate s settings.style h.convention_eq, rfl,
    h.sound⟩

theorem Coherent.read {s : Session} (h : s.Coherent) (line : Option Text) (continued : Bool) :
    (s.read line continued).2.Coherent := by
  obtain ⟨-, hsound, hconv⟩ := h.sound.read line continued (some s.convention)
  exact ⟨h.valid, h.convention_eq, hconv.trans h.reader_eq, hsound⟩

theorem Coherent.readText {s : Session} (h : s.Coherent) (text : Text) :
    (s.readText text).2.Coherent := by
  obtain ⟨-, hsound, hconv⟩ := h.sound.readLines (text.lines.map some) false (some s.convention)
  exact ⟨h.valid, h.convention_eq, hconv.trans h.reader_eq, hsound⟩

theorem Coherent.step {s t : Session} (h : s.Coherent) (hstep : s.Step t) : t.Coherent := by
  cases hstep with
  | stay => exact h
  | switch style => exact h.activateStyle style
  | settle hsettings => exact h.settle hsettings
  | read line continued => exact h.read line continued
  | pass text => exact h.readText text

theorem Coherent.perform {s : Session} (h : s.Coherent) (operation : Operation) :
    (s.perform operation).Coherent :=
  h.step (step_perform s operation)

theorem Reachable.coherent {s : Session} (h : s.Reachable) : s.Coherent :=
  h.induction (fun _ hvalid => coherent_ofSettings hvalid) (fun _ _ => Coherent.step)

theorem reachable_ofSettings {settings : Settings} (h : settings.Valid) :
    (ofSettings settings).Reachable :=
  ⟨settings, [], h, rfl⟩

/-! ## Reading without a memory -/

theorem Coherent.readText_eq {s : Session} (h : s.Coherent) (text : Text) :
    (s.readText text).1 = Line.readLines s.convention false (text.lines.map some) :=
  (h.sound.readLines (text.lines.map some) false (some s.convention)).1

/-! ## Keys -/

open Edit (Action)

theorem noted_eq (actions : List Action) :
    noted actions = if actions.all (·.isWritable) then .ok actions else .error .unwritable := by
  rw [noted, Edit.describe]
  cases actions.all (·.isWritable) <;> rfl

theorem noted_eq_ok {actions : List Action} (h : ∀ action ∈ actions, action.isWritable = true) :
    noted actions = .ok actions := by
  rw [noted_eq, if_pos (List.all_eq_true.mpr h)]

theorem eq_of_noted {actions kept : List Action} (h : noted actions = .ok kept) :
    actions = kept := by
  rw [noted_eq] at h
  split at h
  · exact Except.ok.inj h
  · cases h

theorem insideIf_fst (s : Session) (asked : Bool) (line : Text) (cursor : Int)
    (continued : Bool) :
    (s.insideIf asked line cursor continued).1 =
      (asked && Edit.insideComment (s.read (some line) continued).1 (Edit.clamp line cursor)) := by
  cases asked <;> rfl

theorem settings_insideIf (s : Session) (asked : Bool) (line : Text) (cursor : Int)
    (continued : Bool) : (s.insideIf asked line cursor continued).2.settings = s.settings := by
  cases asked <;> rfl

theorem space_fst (s : Session) (line : Text) (cursor : Int) (continued : Bool) :
    (s.space (some line) cursor continued).1 =
      noted (Edit.spaceKey s.settings (Edit.spaceAsks s.settings line cursor &&
        Edit.insideComment (s.read (some line) continued).1 (Edit.clamp line cursor))
          line cursor) := by
  simp only [space, insideIf_fst, settings_insideIf]

theorem colon_fst (s : Session) (line : Text) (cursor : Int) (continued : Bool) :
    (s.colon (some line) cursor continued).1 =
      noted (Edit.colonKey s.settings (Edit.colonAsks line cursor &&
        Edit.insideComment (s.read (some line) continued).1 (Edit.clamp line cursor))
          line cursor) := by
  simp only [colon, insideIf_fst, settings_insideIf]

end Session
end AsmColumns
