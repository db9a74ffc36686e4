import AsmColumns.Proofs.Session.Reachable
import AsmColumns.Proofs.Settings.Draft

/-!
# Operations that fail

A session keeps the style in three places, and an operation that changes it goes through them one
by one.  Here the operations are programs that change the session step by step and may be given up
between two steps, with the steps before that already made.  A change of settings that is refused is
given up before its first step: once the new style is known, setting it in the tracker, in the
settings and in the reader cannot fail.  Its last step notes the new settings.  If they cannot be
written out it fails there, and the session is left changed.  That is the only failure that does not
leave settings, convention and version alone.

Laying out a text records its pass before the lines are set in columns.  A line that does not fit on
the page makes the layout fail, and the pass stays recorded.
-/

namespace AsmColumns

open Comment (Convention Style Tracker)

/-- Why an operation is given up. -/
inductive Failure where
  | rejection (r : Settings.Rejection)
  | key (f : Session.KeyFault)
  | layout (f : Layout.Fault)

/-- A change of a session in steps.  Where it is given up, the steps before have been made. -/
abbrev Steps (α : Type) := ExceptT Failure (StateM Session) α

namespace Steps

/-- How a program ends that is started in a session, and the session behind it. -/
def runOn {α : Type} (steps : Steps α) (s : Session) : Except Failure α × Session :=
  steps.run.run s

/-- Goes on with a result, or gives up. -/
def orFail {ε α : Type} (failure : ε → Failure) (result : Except ε α) : Steps α :=
  ExceptT.mk (pure (result.mapError failure))

/-- An operation that answers and moves on to the next session, also where it fails. -/
def ofOutcome {ε α : Type} (failure : ε → Failure) (f : Session → Except ε α × Session) :
    Steps Unit :=
  ExceptT.mk fun s => (((f s).1.map fun _ => ()).mapError failure, (f s).2)

/-- The tracker goes first; the settings follow if they name another style, and then the reader. -/
def switchStyle (style : Style) : Steps Unit := do
  modify fun s => { s with tracker := s.tracker.activate style }
  let s ← get
  if s.tracker.convention.style ≠ s.settings.style then
    let name := s.tracker.convention.style.name
    let settings ← orFail .rejection
      (s.settings.update [(.text Settings.Key.commentStyle.name, .text name)])
    modify fun s => { s with settings }
  modify fun s => { s with reader := { s.reader with convention := s.tracker.convention } }

def configure (options : List (Value × Value)) : Steps Unit := do
  let s ← get
  let settings ← orFail .rejection (s.settings.update options)
  switchStyle settings.style
  modify fun s => { s with settings }
  orFail .rejection (if settings.isWritable then .ok () else .error .unwritable)

end Steps

/-- An operation as a program. -/
def Operation.steps : Operation → Steps Unit
  | .activateStyle style => Steps.switchStyle style
  | .activate name => do
      let style ← Steps.orFail .rejection (Tracker.styleNamed name)
      Steps.switchStyle style
  | .configure options => Steps.configure options
  | .read line continued => modify fun s => (s.read line continued).2
  | .readText text => modify fun s => (s.readText text).2
  | .columnFor line continued => modify fun s => (s.columnFor line continued).2
  | .layout text => Steps.ofOutcome .layout fun s => s.layout text
  | .report text => modify fun s => (s.report text).2
  | .indentLine line continued => Steps.ofOutcome .key fun s => s.indentLine line continued
  | .space line cursor continued => Steps.ofOutcome .key fun s => s.space line cursor continued
  | .colon line cursor continued => Steps.ofOutcome .key fun s => s.colon line cursor continued
  | .hash line cursor => Steps.ofOutcome .key fun s => (s.hash line cursor, s)
  | .comment line cursor previous continued =>
      Steps.ofOutcome .key fun s => s.comment line cursor previous continued
  | .newline => Steps.ofOutcome .key fun s => (s.newline, s)

namespace Session

/-- How an operation ends, and the session behind it. -/
def attempt (s : Session) (operation : Operation) : Except Failure Unit × Session :=
  operation.steps.runOn s

/-- The session behind operations, whether they fail or not. -/
def attemptAll (s : Session) (operations : List Operation) : Session :=
  operations.foldl (fun s operation => (s.attempt operation).2) s

/-- The number of operations that leave the session with another style. -/
def styleChanges (s : Session) : List Operation → Nat
  | [] => 0
  | operation :: rest =>
      let t := (s.attempt operation).2
      (if t.convention.style = s.convention.style then 0 else 1) + t.styleChanges rest

/-! ## The programs and the functions -/

section programs

variable {s : Session}

theorem runOn_bind {α β : Type} (steps : Steps α) (next : α → Steps β) :
    (steps >>= next).runOn s =
      match steps.runOn s with
      | (.ok a, t) => (next a).runOn t
      | (.error failure, t) => (.error failure, t) := by
  change ExceptT.bindCont next (steps.runOn s).1 (steps.runOn s).2 = _
  rcases steps.runOn s with ⟨_ | _, t⟩ <;> rfl

theorem runOn_modify (f : Session → Session) : Steps.runOn (modify f) s = (.ok (), f s) := rfl

theorem runOn_get : Steps.runOn get s = (.ok s, s) := rfl

theorem runOn_orFail {ε α : Type} (failure : ε → Failure) (result : Except ε α) :
    (Steps.orFail failure result).runOn s = (result.mapError failure, s) := rfl

theorem runOn_orFail_ok {ε α : Type} (failure : ε → Failure) (a : α) :
    (Steps.orFail failure (.ok a)).runOn s = (.ok a, s) := rfl

/-- Once a style is known it can be set: settings that are valid stay valid with it. -/
theorem runOn_switchStyle (h : s.settings.Valid) (style : Style) :
    (Steps.switchStyle style).runOn s = (.ok (), s.activateStyle style) := by
  have hupdate := Settings.update_style h (s.tracker.activate style).convention.style
  by_cases hstyle : (s.tracker.activate style).convention.style = s.settings.style
  · simp [Steps.switchStyle, runOn_bind, runOn_modify, runOn_get, activateStyle, hstyle]
  · simp [Steps.switchStyle, runOn_bind, runOn_modify, runOn_get, runOn_orFail_ok, activateStyle,
      hstyle, hupdate]

theorem attempt_activate (h : s.settings.Valid) (name : Value) :
    s.attempt (.activate name) =
      match Tracker.styleNamed name with
      | .ok style => (.ok (), s.activateStyle style)
      | .error rejection => (.error (.rejection rejection), s) := by
  rw [attempt, Operation.steps, runOn_bind, runOn_orFail]
  cases Tracker.styleNamed name with
  | ok style => exact runOn_switchStyle h style
  | error fault => rfl

theorem attempt_configure (h : s.settings.Valid) (options : List (Value × Value)) :
    s.attempt (.configure options) =
      (((s.configure options).1.map fun _ => ()).mapError .rejection,
        (s.configure options).2) := by
  rw [attempt, Operation.steps, Steps.configure, runOn_bind, runOn_get]
  dsimp only
  rw [runOn_bind, configure]
  cases s.settings.update options with
  | ok settings =>
      simp only [runOn_orFail_ok, runOn_bind, runOn_switchStyle h, runOn_modify]
      cases settings.isWritable <;> rfl
  | error rejection => rfl

/-- The session behind an operation is the one that the functions on sessions give. -/
theorem attempt_snd (h : s.settings.Valid) (operation : Operation) :
    (s.attempt operation).2 = s.perform operation := by
  cases operation with
  | activateStyle style => exact congrArg Prod.snd (runOn_switchStyle h style)
  | activate name =>
      rw [attempt_activate h, perform, activate]
      cases Tracker.styleNamed name <;> rfl
  | configure options => rw [attempt_configure h, perform]
  | _ => rfl

end programs

/-! ## One operation -/

section step

variable {s : Session}

/-- What a step does to the tracker: it makes a style the active one, or records a pass. -/
theorem tracker_step {t : Session} (hstep : s.Step t) :
    (∃ style, t.tracker = s.tracker.activate style) ∨
      ∃ pass, t.tracker = s.tracker.remember pass := by
  cases hstep with
  | switch style => exact .inl ⟨style, rfl⟩
  | settle hsettings => exact .inl ⟨_, rfl⟩
  | pass text => exact .inr ⟨_, rfl⟩
  -- The pass that was recorded before is recorded still.
  | stay | read => exact .inr ⟨s.tracker.lastPass, rfl⟩

theorem version_activate (tracker : Tracker) (style : Style) :
    (tracker.activate style).version =
      tracker.version +
        if (tracker.activate style).convention.style = tracker.convention.style then 0 else 1 := by
  unfold Tracker.activate
  split
  · simp
  · next hstyle => simp [style_ofStyle, Ne.symm hstyle]

/-- The version counts the changes of style. -/
theorem version_perform (s : Session) (operation : Operation) :
    (s.perform operation).tracker.version =
      s.tracker.version +
        if (s.perform operation).convention.style = s.convention.style then 0 else 1 := by
  rcases tracker_step (step_perform s operation) with ⟨style, htracker⟩ | ⟨pass, htracker⟩
  · simp only [convention, htracker, version_activate]
  · simp [convention, htracker, Tracker.remember]

/-- What a failure leaves as it was. -/
structure Unharmed (s t : Session) : Prop where
  settings : t.settings = s.settings
  convention : t.tracker.convention = s.tracker.convention
  reader : t.reader.convention = s.reader.convention
  version : t.tracker.version = s.tracker.version

/-- The pass that is recorded when an operation has failed. -/
def passBehind (s : Session) : Operation → List Line.Reading
  | .layout text => (s.readText text).1
  | _ => s.tracker.lastPass

/-- A change of options that is accepted and cannot be noted. -/
def Unnoted (s : Session) (operation : Operation) : Prop :=
  ∃ options settings, operation = .configure options ∧
    s.settings.update options = .ok settings ∧ settings.isWritable = false

theorem attempt_unnoted (h : s.settings.Valid) {options : List (Value × Value)}
    {settings : Settings} (hsettings : s.settings.update options = .ok settings)
    (hwritable : settings.isWritable = false) :
    s.attempt (.configure options) =
      (.error (.rejection .unwritable), { s.activateStyle settings.style with settings }) := by
  rw [attempt_configure h, configure, hsettings]
  simp only [hwritable]
  rfl

theorem unharmed_of_failure (h : s.Coherent) {operation : Operation} {failure : Failure}
    (hfailure : (s.attempt operation).1 = .error failure) (hnoted : ¬ s.Unnoted operation) :
    Unharmed s (s.attempt operation).2 ∧
      (s.attempt operation).2.tracker.lastPass = s.passBehind operation := by
  have hsame : Unharmed s s ∧ s.tracker.lastPass = s.tracker.lastPass :=
    ⟨⟨rfl, rfl, rfl, rfl⟩, rfl⟩
  have hread : ∀ line continued, Unharmed s (s.read line continued).2 ∧
      (s.read line continued).2.tracker.lastPass = s.tracker.lastPass :=
    fun line continued =>
      ⟨⟨rfl, rfl, (h.sound.read line continued (some s.convention)).2.2, rfl⟩, rfl⟩
  have hasked : ∀ asked line cursor continued,
      Unharmed s (s.insideIf asked line cursor continued).2 ∧
        (s.insideIf asked line cursor continued).2.tracker.lastPass = s.tracker.lastPass := by
    intro asked line cursor continued
    cases asked with
    | true => exact hread (some line) continued
    | false => exact hsame
  cases operation with
  | activateStyle style =>
      rw [attempt, Operation.steps, runOn_switchStyle h.valid] at hfailure
      cases hfailure
  | activate name =>
      rw [attempt_activate h.valid] at hfailure ⊢
      cases hstyle : Tracker.styleNamed name with
      | ok style => simp [hstyle] at hfailure
      | error fault => exact hsame
  | configure options =>
      rw [attempt_configure h.valid] at hfailure ⊢
      cases hsettings : s.settings.update options with
      | error rejection =>
          simp only [configure, hsettings]
          exact hsame
      | ok settings =>
          -- The settings can be written, for the change can be noted, and then nothing has failed.
          have hwritable : settings.isWritable = true := by
            by_contra hnot
            exact hnoted ⟨options, settings, rfl, hsettings, Bool.eq_false_iff.mpr hnot⟩
          simp only [configure, hsettings, hwritable, if_true] at hfailure
          cases hfailure
  | layout text =>
      exact ⟨⟨rfl, rfl,
        (h.sound.readLines (text.lines.map some) false (some s.convention)).2.2, rfl⟩, rfl⟩
  | indentLine line continued =>
      cases line with
      | none => exact hread none continued
      | some line => cases hfailure
  | space line cursor continued =>
      cases line with
      | none => exact hsame
      | some line => exact hasked _ line cursor continued
  | colon line cursor continued =>
      cases line with
      | none => exact hsame
      | some line => exact hasked _ line cursor continued
  | hash line cursor => exact hsame
  | comment line cursor previous continued =>
      cases line with
      | none => exact hsame
      | some line =>
          rw [attempt_snd h.valid]
          simp only [perform, comment]
          split
          · exact hsame
          · exact hread (some line) continued
  | newline => exact hsame
  | read | readText | columnFor | report => cases hfailure

end step

/-! ## Every run of operations -/

theorem Coherent.attemptAll {s : Session} (h : s.Coherent) (operations : List Operation) :
    (s.attemptAll operations).Coherent ∧
      (s.attemptAll operations).tracker.version =
        s.tracker.version + s.styleChanges operations := by
  induction operations generalizing s with
  | nil => exact ⟨h, rfl⟩
  | cons operation rest ih =>
      have hnext := attempt_snd h.valid operation
      have hversion := version_perform s operation
      have hcoherent := h.perform operation
      rw [← hnext] at hversion hcoherent
      obtain ⟨hrest, hcount⟩ := ih hcoherent
      refine ⟨hrest, hcount.trans ?_⟩
      rw [hversion, styleChanges, Nat.add_assoc]

/-- In every session that arises from valid settings by operations, failed ones included, the
tracker and the reader work with the convention of the style in the settings, the settings are
valid, and the version is one more than the number of operations that changed the style.  An
operation that fails leaves settings, convention and version as they were, and the recorded pass
too unless it is a layout, which has recorded the pass of its text.  The one exception is a change
to settings that cannot be written out: it fails with all its changes made. -/
theorem coherent_behind_operations (settings : Settings) (hvalid : settings.Valid)
    (operations : List Operation) :
    let s := (ofSettings settings).attemptAll operations
    s.tracker.convention = .ofStyle s.settings.style ∧
      s.reader.convention = s.tracker.convention ∧
      s.settings.Valid ∧
      s.tracker.version = 1 + (ofSettings settings).styleChanges operations ∧
      (∀ (operation : Operation) (failure : Failure),
        (s.attempt operation).1 = .error failure → ¬ s.Unnoted operation →
          s.Unharmed (s.attempt operation).2 ∧
            (s.attempt operation).2.tracker.lastPass = s.passBehind operation) ∧
      (∀ (options : List (Value × Value)) (settings : Settings),
        s.settings.update options = .ok settings → settings.isWritable = false →
          s.attempt (.configure options) =
            (.error (.rejection .unwritable),
              { s.activateStyle settings.style with settings })) := by
  intro s
  obtain ⟨hcoherent, hversion⟩ := (coherent_ofSettings hvalid).attemptAll operations
  refine ⟨hcoherent.convention_eq, hcoherent.reader_eq, hcoherent.valid, hversion, ?_, ?_⟩
  · intro operation failure hfailure hnoted
    exact unharmed_of_failure hcoherent hfailure hnoted
  · intro options settings hsettings hwritable
    exact attempt_unnoted hcoherent.valid hsettings hwritable

/-- After the style was switched once and once not, a comment column left of the margin is refused
and changes nothing.  One that cannot be written out fails too, with a third style made active. -/
theorem coherent_behind_failed_columns :
    ({} : Settings).Valid ∧
      let s := (ofSettings {}).attemptAll
        [.activate (.text "line-hash".toList), .activateStyle .lineHash]
      let refused := s.attempt (.configure [(.text "commentColumn".toList, .int (-1))])
      let unnoted := s.attempt (.configure [(.text "commentStyle".toList, .text "lineStar".toList),
        (.text "commentColumn".toList, .int Decimal.leastUnwritable)])
      refused.1 = .error (.rejection
          (.fault ⟨"commentColumn".toList, .int (-1), "must be non-negative"⟩)) ∧
        s.tracker.version = 2 ∧ s.Unharmed refused.2 ∧
        refused.2.tracker.lastPass = s.tracker.lastPass ∧
        unnoted.1 = .error (.rejection .unwritable) ∧ unnoted.2.tracker.version = 3 ∧
        unnoted.2.settings = { style := .lineStar, commentColumn := Decimal.leastUnwritable } := by
  refine ⟨Settings.valid_default, ?_⟩
  intro s refused unnoted
  obtain ⟨-, -, -, hversion, hfailed, hunnoted⟩ :=
    coherent_behind_operations {} Settings.valid_default
      [.activate (.text "line-hash".toList), .activateStyle .lineHash]
  have hrefused : refused.1 = .error (.rejection
      (.fault ⟨"commentColumn".toList, .int (-1), "must be non-negative"⟩)) := rfl
  have hkept := hfailed _ _ hrefused (by
    rintro ⟨options, settings, hoptions, hsettings, -⟩
    cases hoptions
    cases hsettings)
  let far : Settings := { style := .lineStar, commentColumn := Decimal.leastUnwritable }
  have hfar : far.Valid :=
    ⟨by decide, by decide, by decide, Decimal.leastUnwritable_nonneg⟩
  have hsettings : s.settings.update [(.text "commentStyle".toList, .text "lineStar".toList),
      (.text "commentColumn".toList, .int Decimal.leastUnwritable)] = .ok far :=
    (Settings.update_overrides s.settings (some .lineStar) (some Decimal.leastUnwritable)
      none).trans (Settings.check_draft hfar)
  have hwritable : far.isWritable = false := by
    rw [← Bool.not_eq_true, Settings.isWritable_iff]
    intro hall
    have hcolumn : Decimal.isWritable Decimal.leastUnwritable = true := hall .commentColumn
    rw [Decimal.isWritable_leastUnwritable] at hcolumn
    cases hcolumn
  have hattempt : unnoted = _ := hunnoted _ _ hsettings hwritable
  rw [hattempt]
  exact ⟨hrefused, hversion, hkept.1, hkept.2, rfl, rfl, rfl⟩

/-- A layout that fails has moved on to another pass: the second character of the text was comment
in the pass before it and is none behind it. -/
theorem layout_failure_records_pass :
    let settings : Settings := { tabStops := [Text.maxRun + 1] }
    let s := (ofSettings settings).attemptAll [.readText "; abc".toList]
    let failed := s.attempt (.layout " mov".toList)
    settings.Valid ∧ failed.1 = .error (.layout .tooWide) ∧
      s.isInside 2 = .ok true ∧ failed.2.isInside 2 = .ok false ∧
      failed.2.tracker.lastPass ≠ s.tracker.lastPass := by
  intro settings s failed
  have hvalid : settings.Valid := ⟨by decide, by decide, by decide, by decide⟩
  have hs : s.Coherent := ((coherent_ofSettings hvalid).attemptAll _).1
  have hbefore : s.tracker.lastPass =
      Line.readLines (.ofStyle .lineSemicolon) false [some "; abc".toList] :=
    (coherent_ofSettings hvalid).readText_eq "; abc".toList
  have hbehind : (s.readText " mov".toList).1 =
      Line.readLines (.ofStyle .lineSemicolon) false [some " mov".toList] :=
    hs.readText_eq " mov".toList
  have hpass : failed.2.tracker.lastPass = (s.readText " mov".toList).1 := rfl
  have hinside : s.isInside 2 = .ok true := by
    rw [isInside, hbefore]
    rfl
  have houtside : failed.2.isInside 2 = .ok false := by
    rw [isInside, hpass, hbehind]
    rfl
  refine ⟨hvalid, ?_, hinside, houtside, ?_⟩
  · change (((layoutLines s.page (s.readText " mov".toList).1).map Text.unlines).map
      fun _ => ()).mapError Failure.layout = _
    rw [hbehind]
    rfl
  · intro hsame
    rw [isInside] at hinside houtside
    rw [hsame, hinside] at houtside
    cases houtside

end Session
end AsmColumns
