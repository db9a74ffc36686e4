import AsmColumns.Proofs.Command.Agreement
import AsmColumns.Proofs.Settings.Draft
import AsmColumns.Proofs.Value

/-!
# How commands end

On a console that takes what it shows, a command without a settings file ends with an exit status
if its options are refused, if its file cannot be opened, or if the text of the file can be laid
out.  Three things stop it for good before it shows anything: a null character in the path, bytes
that are no text, and a column beyond the longest run of spaces.  The one other thing that stops it
is a console that refuses an item.
-/

namespace AsmColumns

namespace Command

variable {host : Host} {request : Request} {dir : Directory}

/-- The tab stops that a request asks for; an empty text asks for none. -/
def Request.stops? (request : Request) : Except Settings.Fault (Option (List Int)) :=
  match request.tabStops with
  | none | some [] => .ok none
  | some text => (tabStopsOf text).map some

/-- The settings that a request without a settings file asks for. -/
def Request.settings (request : Request) : Settings :=
  ({} : Settings).overridden request.style request.commentColumn
    (request.stops?.toOption.getD none)

/-- The options of a request are ones that settings can have. -/
structure Request.Acceptable (request : Request) : Prop where
  column_nonneg : ∀ column ∈ request.commentColumn, 0 ≤ column
  stops_sorted : ∀ text ∈ request.tabStops, ∃ stops, tabStopsOf text = .ok stops ∧
    (∀ stop ∈ stops, 0 ≤ stop) ∧ stops.Pairwise (· ≤ ·)

theorem overrides_eq (request : Request) :
    request.overrides =
      request.stops?.map (Settings.overrides request.style request.commentColumn) := by
  unfold Request.overrides Request.stops?
  cases request.tabStops with
  | none => simp [Settings.overrides, Except.map]
  | some text =>
      cases text with
      | nil => simp [Settings.overrides, Except.map]
      | cons c rest =>
          cases hstops : tabStopsOf (c :: rest) <;>
            simp [hstops, Settings.overrides, Except.map]

theorem settings_of_stops {stops : Option (List Int)} (h : request.stops? = .ok stops) :
    request.settings = ({} : Settings).overridden request.style request.commentColumn stops := by
  rw [Request.settings, h]
  rfl

theorem forall_tabStops_iff {p : List Int → Prop} (hnil : p []) :
    (∀ text ∈ request.tabStops, ∃ stops, tabStopsOf text = .ok stops ∧ p stops) ↔
      ∃ stops, request.stops? = .ok stops ∧ ∀ list ∈ stops, p list := by
  unfold Request.stops?
  cases request.tabStops with
  | none => simp
  | some text =>
      cases text with
      | nil =>
          have hempty : tabStopsOf [] = .ok [] := rfl
          simp [hempty, hnil]
      | cons c rest =>
          cases hstops : tabStopsOf (c :: rest) <;> simp [hstops, Except.map]

/-- The options of a request are acceptable if and only if its tab stops can be read and the
settings that it asks for are valid. -/
theorem acceptable_iff :
    request.Acceptable ↔ (∃ stops, request.stops? = .ok stops) ∧ request.settings.Valid := by
  constructor
  · intro h
    obtain ⟨stops, hread, hsorted⟩ :=
      (forall_tabStops_iff ⟨by simp, List.Pairwise.nil⟩).mp h.stops_sorted
    refine ⟨⟨stops, hread⟩, ?_⟩
    rw [settings_of_stops hread, Settings.valid_overridden_iff _ _ _ Settings.valid_default]
    exact ⟨h.column_nonneg, hsorted⟩
  · rintro ⟨⟨stops, hread⟩, hvalid⟩
    rw [settings_of_stops hread, Settings.valid_overridden_iff _ _ _ Settings.valid_default]
      at hvalid
    constructor
    · exact hvalid.1
    · exact (forall_tabStops_iff ⟨by simp, List.Pairwise.nil⟩).mpr ⟨stops, hread, hvalid.2⟩

/-! ## Options in writing

The integers of a command line were read from its words, so a note of them or a refusal can quote
them. -/

theorem exists_of_mem_mapM {α β : Type} {f : α → Option β} {xs : List α} {ys : List β}
    (h : xs.mapM f = some ys) {y : β} (hy : y ∈ ys) : ∃ x ∈ xs, f x = some y := by
  induction xs generalizing ys with
  | nil =>
      obtain rfl : [] = ys := by simpa using h
      cases hy
  | cons x xs ih =>
      simp only [List.mapM_cons, Option.pure_def, Option.bind_eq_bind,
        Option.bind_eq_some_iff, Option.some.injEq] at h
      obtain ⟨first, hfirst, rest, hrest, rfl⟩ := h
      rcases List.mem_cons.mp hy with rfl | hy
      · exact ⟨x, List.mem_cons_self, hfirst⟩
      · obtain ⟨x, hx, hfx⟩ := ih hrest hy
        exact ⟨x, List.mem_cons_of_mem _ hx, hfx⟩

theorem isWritable_of_tabStopsOf {text : Text} {stops : List Int}
    (h : tabStopsOf text = .ok stops) : (Value.list (stops.map .int)).isWritable = true := by
  rw [tabStopsOf] at h
  split at h
  · next stops' hstops =>
    obtain rfl : stops' = stops := Except.ok.inj h
    rw [Value.isWritable_list_iff, List.forall_mem_map]
    intro stop hstop
    obtain ⟨piece, -, hpiece⟩ := exists_of_mem_mapM hstops hstop
    exact Value.isWritable_of_integer? hpiece
  · cases h

/-- The comment column of a request, if it has one, can be written out. -/
def Request.ColumnIsWritable (request : Request) : Prop :=
  ∀ column ∈ request.commentColumn, (Value.int column).isWritable = true

theorem columnIsWritable_withValue {request next : Request} {value : Text} {which : Local}
    (h : request.ColumnIsWritable) (hnext : request.withValue value which = some next) :
    next.ColumnIsWritable := by
  cases which with
  | config => exact Option.some.inj hnext ▸ h
  | tabStops => exact Option.some.inj hnext ▸ h
  | style =>
      obtain ⟨style, -, rfl⟩ := Option.map_eq_some_iff.mp hnext
      exact h
  | commentColumn =>
      obtain ⟨column, hcolumn, rfl⟩ := Option.map_eq_some_iff.mp hnext
      rintro n hn
      obtain rfl : column = n := Option.some.inj hn
      exact Value.isWritable_of_integer? hcolumn
  | help | write | diff => cases hnext

theorem columnIsWritable_readLocal {draft : Draft} {steps : List (Step Local)}
    (h : draft.request.ColumnIsWritable) (hrun : readLocal draft steps = .run request) :
    request.ColumnIsWritable := by
  fun_induction readLocal draft steps with
  | case1 draft =>
      rw [Draft.finish] at hrun
      split at hrun
      · exact Invocation.run.inj hrun ▸ h
      · cases hrun
  | case2 => cases hrun
  | case3 draft rest ih => exact ih h hrun
  | case4 draft words rest _ ih => exact ih h hrun
  | case5 => cases hrun
  | case6 draft _ rest ih => exact ih h hrun
  | case7 draft _ rest ih => exact ih h hrun
  | case8 draft which value rest _ _ _ next hnext ih =>
      exact ih (columnIsWritable_withValue h hnext) hrun
  | case9 => cases hrun

theorem columnIsWritable_readGlobal {leftOver : Bool} {steps : List (Step Global)}
    (hrun : readGlobal leftOver steps = .run request) : request.ColumnIsWritable := by
  fun_induction readGlobal leftOver steps with
  | case1 => cases hrun
  | case2 => cases hrun
  | case3 => cases hrun
  | case4 leftOver rest ih => exact ih hrun
  | case5 => cases hrun
  | case6 => cases hrun
  | case7 leftOver _ rest ih => exact ih hrun
  | case8 leftOver words _ verb _ =>
      have hfresh : Request.ColumnIsWritable { verb } := nofun
      exact columnIsWritable_readLocal hfresh hrun
  | case9 => cases hrun

theorem columnIsWritable_ofWords {words : List Text}
    (h : Invocation.ofWords words = .run request) : request.ColumnIsWritable :=
  columnIsWritable_readGlobal h

theorem isWritable_of_stops? {stops : List Int} (h : request.stops? = .ok (some stops)) :
    (Value.list (stops.map .int)).isWritable = true := by
  rw [Request.stops?] at h
  split at h
  · cases h
  · cases h
  · next text _ _ =>
    cases hread : tabStopsOf text with
    | error fault =>
        rw [hread] at h
        cases h
    | ok read =>
        rw [hread] at h
        cases h
        exact isWritable_of_tabStopsOf hread

theorem isWritable_settings (h : request.ColumnIsWritable) (key : Settings.Key) :
    (request.settings.draft key).isWritable = true := by
  cases key with
  | commentStyle | colonAfterLabel | tabAfterOperation | newlineAfterLabel => rfl
  | tabWidth =>
      change (Value.int 8).isWritable = true
      decide
  | commentColumn =>
      change (Value.int (request.commentColumn.getD 32)).isWritable = true
      cases hcolumn : request.commentColumn with
      | none => rfl
      | some column => exact h column hcolumn
  | tabStops =>
      change (Value.list (((request.stops?.toOption.getD none).getD
        ({} : Settings).tabStops).map .int)).isWritable = true
      cases hstops : request.stops? with
      | error fault => rfl
      | ok stops =>
          cases stops with
          | none => rfl
          | some stops => exact isWritable_of_stops? hstops

theorem isWritable_overrides (hcolumn : request.ColumnIsWritable) {stops : Option (List Int)}
    (hstops : request.stops? = .ok stops) :
    (Value.table (Settings.overrides request.style request.commentColumn stops)).isWritable =
      true := by
  rw [Value.isWritable_table_iff]
  intro entry hentry
  simp only [Settings.overrides, List.mem_append, Option.mem_toList,
    Option.map_eq_some_iff] at hentry
  rcases hentry with (⟨style, -, rfl⟩ | ⟨column, hsome, rfl⟩) | ⟨list, rfl, rfl⟩
  · exact ⟨rfl, rfl⟩
  · exact ⟨rfl, hcolumn column hsome⟩
  · exact ⟨rfl, isWritable_of_stops? hstops⟩

/-! ## The session of a request without a settings file -/

theorem overriding_cases (hcolumn : request.ColumnIsWritable) {stops : Option (List Int)}
    (hstops : request.stops? = .ok stops) :
    let options := Settings.overrides request.style request.commentColumn stops
    (request.settings.Valid ∧ ∃ session, overriding {} options = .ok session ∧
      session.settings = request.settings) ∨
    (¬ request.settings.Valid ∧ ∃ fault, overriding {} options = .error (.fault fault)) := by
  intro options
  have hsettings := settings_of_stops hstops
  have hwritable := isWritable_settings hcolumn
  unfold overriding
  by_cases hnone : options = []
  · -- Without options nothing is overridden, and nothing is noted.
    have hdefault : request.settings = {} := by
      simp only [options, Settings.overrides, List.append_eq_nil_iff, Option.toList_eq_nil_iff,
        Option.map_eq_none_iff] at hnone
      obtain ⟨⟨hstyle, hcolumn⟩, rfl⟩ := hnone
      rw [hsettings, hstyle, hcolumn]
      rfl
    rw [hdefault, if_pos (List.isEmpty_iff.mpr hnone)]
    exact .inl ⟨Settings.valid_default, _, rfl, rfl⟩
  · have hnoted : (Value.table options).isWritable = true := isWritable_overrides hcolumn hstops
    have hupdate : (Session.ofSettings {}).settings.update options =
        request.settings.draft.check := by
      rw [hsettings]
      exact Settings.update_overrides ..
    rw [if_neg (by simpa using hnone), if_neg (by simp [hnoted]), Session.configure, hupdate]
    by_cases hvalid : request.settings.Valid
    · rw [Settings.check_draft hvalid]
      simp only [Settings.isWritable_iff.mpr hwritable, if_true]
      exact .inl ⟨hvalid, _, rfl, rfl⟩
    · obtain ⟨fault, hfault⟩ := Settings.exists_fault_of_not_valid hwritable hvalid
      rw [hfault]
      exact .inr ⟨hvalid, fault, rfl⟩

theorem session_cases (hconfig : request.config = none) (hcolumn : request.ColumnIsWritable)
    (host : Host) (dir : Directory) :
    (request.Acceptable ∧ ∃ session, request.session host dir = .ok session ∧
      session.settings = request.settings) ∨
    (¬ request.Acceptable ∧
      ∃ fault, request.session host dir = .error (.rejected (.fault fault))) := by
  have hfile : request.fileSettings host dir = .ok {} := by
    simp [Request.fileSettings, hconfig]
  rw [Request.session, hfile, overrides_eq, acceptable_iff]
  cases hstops : request.stops? with
  | error fault => exact .inr ⟨by simp, fault, rfl⟩
  | ok stops =>
      simp only [Except.map]
      rcases overriding_cases hcolumn hstops with
        ⟨hvalid, session, hsession, hsettings⟩ | ⟨hinvalid, fault, hfault⟩
      · rw [hsession]
        exact .inl ⟨⟨⟨stops, rfl⟩, hvalid⟩, session, rfl, hsettings⟩
      · rw [hfault]
        exact .inr ⟨fun h => hinvalid h.2, fault, rfl⟩

end Command

/-! ## Columns in writing -/

namespace Session

theorem isWritable_columnOf {s : Session} (h : s.settings.isWritable = true) (r : Line.Reading) :
    Decimal.isWritable (s.columnOf r) = true := by
  have hall := Settings.isWritable_iff.mp h
  rw [columnOf, page]
  rcases Layout.column_whole_cases s.convention s.settings.stops s.settings.commentColumn r with
    hzero | hcolumn | hfirst
  · rw [hzero]
    exact Decimal.isWritable_of_le_maxRun le_rfl (by decide)
  · rw [hcolumn]
    exact hall .commentColumn
  · rw [hfirst]
    rcases TabStops.first_mem_or_eq_width s.settings.stops with hmem | hwidth
    · have hstops := Value.isWritable_list_iff.mp (hall .tabStops)
      exact hstops _ (List.mem_map_of_mem hmem)
    · rw [hwidth]
      exact hall .tabWidth

end Session

namespace Command

/-- The lines of a file can be shown if the settings can be written out. -/
theorem exists_lineTable {session : Session} (h : session.settings.isWritable = true)
    (name : String) (body : Text) :
    ∃ table, Item.lineTable name (session.report body).1 = .ok table := by
  have hwritable : ((session.report body).1.all fun report =>
      Decimal.isWritable report.column) = true := by
    rw [List.all_eq_true]
    intro report hreport
    obtain ⟨i, hi, rfl⟩ := List.mem_mapIdx.mp hreport
    exact Session.isWritable_columnOf (s := (session.readText body).2) h _
  exact ⟨_, if_pos hwritable⟩

end Command

/-! ## Paths with a null character -/

namespace Directory

variable {dir : Directory} {path : Path} {c : Char}

theorem mem_splitSlashes_iff (hc : c ≠ '/') (t : Text) :
    (∃ part ∈ splitSlashes t, c ∈ part) ↔ c ∈ t := by
  induction t with
  | nil => simp [splitSlashes]
  | cons d rest ih =>
      rw [splitSlashes, List.mem_cons, ← ih]
      split
      · next hd =>
        have hne : c ≠ d := by simpa [eq_of_beq hd] using hc
        simp [hne]
      · split
        · next hnil => simp [hnil]
        · next hcons => simp [hcons, or_assoc]

theorem mem_joinSlashes_iff (hc : c ≠ '/') (parts : List Text) :
    c ∈ joinSlashes parts ↔ ∃ part ∈ parts, c ∈ part := by
  fun_induction joinSlashes parts with
  | case1 => simp
  | case2 part => simp
  | case3 part later _ ih => simp [ih, hc]

/-- A path has the characters of its text, but for slashes and dots. -/
theorem mem_text_ofText_iff (hslash : c ≠ '/') (hdot : c ≠ '.') (t : Text) :
    c ∈ (Path.ofText t).text ↔ c ∈ t := by
  have hparts : c ∈ joinSlashes (Path.ofText t).parts ↔ c ∈ t := by
    rw [mem_joinSlashes_iff hslash, ← mem_splitSlashes_iff hslash t]
    constructor
    · rintro ⟨part, hpart, hmem⟩
      exact ⟨part, (List.mem_filter.mp hpart).1, hmem⟩
    · rintro ⟨part, hpart, hmem⟩
      refine ⟨part, List.mem_filter.mpr ⟨hpart, ?_⟩, hmem⟩
      have hne : part ≠ [] := List.ne_nil_of_mem hmem
      have hstays : part ≠ ['.'] := by
        rintro rfl
        exact hdot (List.mem_singleton.mp hmem)
      simp [hne, hstays]
  rw [← hparts, Path.text]
  split
  · simp [hslash]
  · split
    · next hnil => simp [List.isEmpty_iff.mp hnil, joinSlashes, hdot]
    · rfl

theorem parentFault?_ne_null {resolved : Path} :
    dir.parentFault? path resolved ≠ some .nullCharacter := by
  intro h
  obtain ⟨n, -, hfault⟩ := List.exists_of_findSome?_eq_some h
  simp only at hfault
  split at hfault <;> cases hfault

theorem locate_error_null_iff :
    dir.locate path = .error .nullCharacter ↔ '\x00' ∈ path.text := by
  unfold locate
  simp only
  split
  · next hnull => simpa using hnull
  · next hnull =>
    refine iff_of_false ?_ (by simpa using hnull)
    split
    · simp
    · split
      · next fault hfault =>
        rintro ⟨⟩
        exact parentFault?_ne_null hfault
      · simp

theorem read_error_null_iff :
    dir.read path = .error .nullCharacter ↔ '\x00' ∈ path.text := by
  rw [← @locate_error_null_iff dir]
  unfold read
  cases dir.locate path with
  | error fault => simp
  | ok name =>
      simp only [reduceCtorEq, iff_false]
      split <;> simp

end Directory

/-! ## Endings -/

namespace Command

variable {host : Host} {request : Request} {dir : Directory} {session : Session}
  {text laid : Text}

/-- What stops a request for good, once its options are accepted. -/
inductive Request.Escapes (request : Request) (dir : Directory) : Failure → Prop where
  | nullCharacter : '\x00' ∈ request.path → Escapes request dir .nullCharacter
  | notText {bytes : ByteArray} :
      dir.read (.ofText request.path) = .ok bytes → Directory.decodeMarked? bytes = none →
      Escapes request dir .notText
  | tooWide {bytes : ByteArray} {text : Text} :
      dir.read (.ofText request.path) = .ok bytes → Directory.decodeMarked? bytes = some text →
      request.settings.TooWide (Source.ofText text).body →
      Escapes request dir (.layout .tooWide)

section escapes

variable {failure : Failure} {fault : Directory.Fault} {bytes : ByteArray}

theorem read_null_iff :
    dir.read (.ofText request.path) = .error .nullCharacter ↔ '\x00' ∈ request.path := by
  rw [Directory.read_error_null_iff, Directory.mem_text_ofText_iff (by decide) (by decide)]

theorem escapes_of_unreadable (hread : dir.read (.ofText request.path) = .error fault) :
    request.Escapes dir failure ↔ failure = .nullCharacter ∧ fault = .nullCharacter := by
  have hnull := @read_null_iff request dir
  rw [hread, Except.error.injEq] at hnull
  constructor
  · intro h
    cases h with
    | nullCharacter hmem => exact ⟨rfl, hnull.mpr hmem⟩
    | notText hbytes =>
        rw [hread] at hbytes
        cases hbytes
    | tooWide hbytes =>
        rw [hread] at hbytes
        cases hbytes
  · rintro ⟨rfl, hfault⟩
    exact .nullCharacter (hnull.mp hfault)

theorem escapes_of_bytes (hread : dir.read (.ofText request.path) = .ok bytes) :
    request.Escapes dir failure ↔
      match Directory.decodeMarked? bytes with
      | none => failure = .notText
      | some text =>
          failure = .layout .tooWide ∧ request.settings.TooWide (Source.ofText text).body := by
  have hnull : '\x00' ∉ request.path := by
    rw [← @read_null_iff request dir, hread]
    simp
  constructor
  · intro h
    cases h with
    | nullCharacter hmem => exact absurd hmem hnull
    | notText hbytes hdecode =>
        obtain rfl := Except.ok.inj (hread.symm.trans hbytes)
        rw [hdecode]
    | tooWide hbytes hdecode hwide =>
        obtain rfl := Except.ok.inj (hread.symm.trans hbytes)
        rw [hdecode]
        exact ⟨rfl, hwide⟩
  · intro h
    split at h
    · next hdecode =>
      rw [h]
      exact .notText hread hdecode
    · next hdecode =>
      rw [h.1]
      exact .tooWide hread hdecode h.2

end escapes

theorem exit_runIndent (host : Host) (dir : Directory) (request : Request) (work : Work) :
    ∃ code ∈ [exitOk, exitMisaligned, exitError],
      (runIndent host.accepting dir request work).ending = .exit code := by
  rw [runIndent, Host.printing_accepting, writeLayout]
  split
  · split
    · exact ⟨exitError, by simp, by simp⟩
    · exact ⟨exitOk, by simp, by simp⟩
  · exact ⟨exitOk, by simp, rfl⟩

theorem exit_of_layout (hprepared : request.prepare host dir = .ok (session, text))
    (hwritable : session.settings.isWritable = true)
    (hlaid : (session.layout (Source.ofText text).body).1 = .ok laid) :
    ∃ code ∈ [exitOk, exitMisaligned, exitError],
      (request.run host.accepting dir).ending = .exit code := by
  have haccepting : request.prepare host.accepting dir = .ok (session, text) := hprepared
  have hrun : request.run host.accepting dir = _ :=
    run_of_ok haccepting hlaid request.verb request.write request.diff
  rw [hrun]
  cases request.verb with
  | showLines =>
      obtain ⟨table, htable⟩ := exists_lineTable hwritable
        (request.work session text laid).name (Source.ofText text).body
      have hshow : Item.lineTable (request.work session text laid).name
          (request.work session text laid).reports = .ok table := htable
      exact ⟨exitOk, by simp, by simp [runShow, hshow]⟩
  | indent => exact exit_runIndent ..
  | check =>
      simp only [runCheck, Host.printing_accepting]
      split
      · exact ⟨exitOk, by simp, rfl⟩
      · exact ⟨exitMisaligned, by simp, rfl⟩

/-- Every way in which a request can end whose options are accepted, on a console that takes what it
shows.  If it is stopped for good, it has shown nothing. -/
theorem ending_cases (hcolumn : request.ColumnIsWritable)
    (hsession : request.session host dir = .ok session)
    (hsettings : session.settings = request.settings) :
    (∃ failure, request.run host.accepting dir =
        { ending := .failed failure, directory := dir } ∧
      ∀ other, request.Escapes dir other ↔ other = failure) ∨
    (∃ code ∈ [exitOk, exitMisaligned, exitError],
      (request.run host.accepting dir).ending = .exit code ∧
      (∀ failure, ¬ request.Escapes dir failure) ∧
      ((∃ fault, dir.read (.ofText request.path) = .error fault) → code = exitError)) := by
  have haccepting : request.session host.accepting dir = .ok session := hsession
  cases hread : dir.read (.ofText request.path) with
  | error fault =>
      have hrun : request.run host.accepting dir =
          stopped host.accepting dir request (.unreadable fault) := by
        simp only [Request.run, Request.prepare, haccepting, hread]
      simp only [hrun, escapes_of_unreadable hread]
      cases fault with
      | nullCharacter => exact .inl ⟨.nullCharacter, rfl, by simp⟩
      | notFound | notDirectory | isDirectory => exact .inr ⟨exitError, by simp, rfl, by simp⟩
  | ok bytes =>
      simp only [escapes_of_bytes hread]
      cases hdecode : Directory.decodeMarked? bytes with
      | none =>
          have hrun : request.run host.accepting dir =
              stopped host.accepting dir request .notText := by
            simp only [Request.run, Request.prepare, haccepting, hread, hdecode]
          exact .inl ⟨.notText, by rw [hrun]; rfl, by simp⟩
      | some text =>
          have hprepared := prepare_eq_ok_iff.mpr ⟨haccepting, bytes, hread, hdecode⟩
          have hlayout := (reachable_of_session hsession).coherent.layout_error_iff
            (Source.ofText text).body
          rw [hsettings] at hlayout
          cases hlaid : (session.layout (Source.ofText text).body).1 with
          | error fault =>
              obtain ⟨rfl, hwide⟩ := (hlayout fault).mp hlaid
              have hrun : request.run host.accepting dir = _ :=
                run_of_error hprepared hlaid request.verb request.write request.diff
              exact .inl ⟨.layout .tooWide, hrun, by simp [hwide]⟩
          | ok laid =>
              have hwritable : session.settings.isWritable = true := by
                rw [hsettings]
                exact Settings.isWritable_iff.mpr (isWritable_settings hcolumn)
              obtain ⟨code, hcode, hending⟩ := exit_of_layout hprepared hwritable hlaid
              have hwide : ¬ request.settings.TooWide (Source.ofText text).body := by
                intro hwide
                have herror := (hlayout .tooWide).mpr ⟨rfl, hwide⟩
                rw [hlaid] at herror
                cases herror
              exact .inr ⟨code, hcode, hending, by simp [hwide]⟩

/-- The options of a request are refused, or its file cannot be opened under a path without null
characters. -/
def Request.Unusable (request : Request) (dir : Directory) : Prop :=
  ¬ request.Acceptable ∨
    (∃ fault, dir.read (.ofText request.path) = .error fault) ∧ '\x00' ∉ request.path

/-- Every way in which a request can end without a settings file, on a console that takes what it
shows. -/
theorem accepting_cases (hconfig : request.config = none) (hcolumn : request.ColumnIsWritable)
    (host : Host) (dir : Directory) :
    (∃ failure, request.run host.accepting dir =
        { ending := .failed failure, directory := dir } ∧
      (∀ other, request.Acceptable ∧ request.Escapes dir other ↔ other = failure) ∧
      ¬ request.Unusable dir) ∨
    (∃ code ∈ [exitOk, exitMisaligned, exitError],
      (request.run host.accepting dir).ending = .exit code ∧
      (∀ failure, ¬ (request.Acceptable ∧ request.Escapes dir failure)) ∧
      (request.Unusable dir → code = exitError)) := by
  rcases session_cases hconfig hcolumn host dir with
    ⟨hacceptable, session, hsession, hsettings⟩ | ⟨hrefused, fault, hfault⟩
  · rcases ending_cases hcolumn hsession hsettings with
      ⟨failure, hrun, hescapes⟩ | ⟨code, hcode, hending, hescapes, hread⟩
    · refine .inl ⟨failure, hrun, by simp [hacceptable, hescapes], ?_⟩
      rintro (hrefused | ⟨⟨fault, hfault⟩, hnull⟩)
      · exact hrefused hacceptable
      · have hescape := (hescapes failure).mpr rfl
        rw [escapes_of_unreadable hfault] at hescape
        rw [hescape.2, read_null_iff] at hfault
        exact hnull hfault
    · refine .inr ⟨code, hcode, hending, by simp [hescapes], ?_⟩
      rintro (hrefused | ⟨hfault, -⟩)
      · exact absurd hacceptable hrefused
      · exact hread hfault
  · have haccepting : request.session host.accepting dir = .error (.rejected (.fault fault)) :=
      hfault
    refine .inr ⟨exitError, by simp, ?_, by simp [hrefused], fun _ => rfl⟩
    simp only [Request.run, Request.prepare, haccepting]
    rfl

/-- How a command line ends that asks for a command without a settings file, on any host.  What it
shows is what it prints on a console that takes every item.  It fails if its options are accepted
and something about its file stops it for good, and if the console refuses an item that it shows.
Otherwise it ends with an exit status, which is 2 if its options are refused, and if its file cannot
be opened under a path without null characters. -/
theorem run_exits_iff (host : Host) {words : List Text} {request : Request}
    (hwords : Invocation.ofWords words = .run request) (hconfig : request.config = none)
    (dir : Directory) :
    let shown := request.shown host dir
    (∀ failure, (run host dir words).ending = .failed failure ↔
      (request.Acceptable ∧ request.Escapes dir failure) ∨
        ∃ r, host.firstRefusal? shown = some r ∧ failure = .console r) ∧
    ((∃ code ∈ [exitOk, exitMisaligned, exitError], (run host dir words).ending = .exit code) ↔
      host.Prints shown ∧ ¬ (request.Acceptable ∧ ∃ failure, request.Escapes dir failure)) ∧
    (host.Prints shown → request.Unusable dir → (run host dir words).ending = .exit exitError) := by
  intro shown
  have hrun : run host dir words = request.run host dir := by rw [run, hwords]
  rw [hrun, ← Host.firstRefusal?_eq_none_iff]
  cases hrefusal : host.firstRefusal? shown with
  | none =>
      rw [run_of_prints (Host.firstRefusal?_eq_none_iff.mp hrefusal)]
      rcases accepting_cases hconfig (columnIsWritable_ofWords hwords) host dir with
        ⟨failure, hfails, hescapes, husable⟩ | ⟨code, hcode, hending, hescapes, hunusable⟩
      · obtain ⟨hacceptable, hescape⟩ := (hescapes failure).mpr rfl
        rw [hfails]
        refine ⟨by simp [hescapes, eq_comm], ?_, fun _ hnot => absurd hnot husable⟩
        exact iff_of_false (by simp) fun h => h.2 ⟨hacceptable, failure, hescape⟩
      · rw [hending]
        refine ⟨by simp [hescapes], ?_, fun _ hnot => by rw [hunusable hnot]⟩
        refine iff_of_true ⟨code, hcode, rfl⟩ ⟨rfl, ?_⟩
        rintro ⟨hacceptable, failure, hescape⟩
        exact hescapes failure ⟨hacceptable, hescape⟩
  | some r =>
      rw [ending_of_firstRefusal? hrefusal]
      rcases accepting_cases hconfig (columnIsWritable_ofWords hwords) host dir with
        ⟨failure, hfails, -⟩ | ⟨code, hcode, hending, hescapes, -⟩
      · -- A request that is stopped for good shows nothing that could be refused.
        simp [shown, Request.shown, hfails, Host.firstRefusal?] at hrefusal
      · simp [hescapes, eq_comm]

/-- A check of a file with one byte that starts no character ends without an exit status, and so
does one with tab stops that are no integers on a console that refuses to say so. -/
theorem run_fails_invalid_byte :
    let words := ["check".toList, "a.s".toList]
    let request : Request := { verb := .check, path := "a.s".toList }
    let dir : Directory := ⟨[("a.s".toList, .file ⟨#[0xff]⟩)]⟩
    let strict : Host := { Host.standard with refusal? := fun _ => some .markup }
    Invocation.ofWords words = .run request ∧ request.config = none ∧ request.Acceptable ∧
      (run .standard dir words).ending = .failed .notText ∧
      (∀ code, (run .standard dir words).ending ≠ .exit code) ∧
      (run strict dir (words ++ ["--tab-stops".toList, "[/x]".toList])).ending =
        .failed (.console .markup) := by
  intro words request dir strict
  have hwords : Invocation.ofWords words = .run request := by rfl
  have hacceptable : request.Acceptable := ⟨by simp [request], by simp [request]⟩
  have hread : dir.read (.ofText request.path) = .ok ⟨#[0xff]⟩ := by rfl
  have hbytes : Directory.decodeMarked? ⟨#[0xff]⟩ = none := by decide +kernel
  have hescapes : request.Escapes dir .notText := .notText hread hbytes
  have hending := ((run_exits_iff .standard hwords rfl dir).1 .notText).mpr
    (.inl ⟨hacceptable, hescapes⟩)
  let refused : Request := { request with tabStops := some "[/x]".toList }
  have hrefused : Invocation.ofWords (words ++ ["--tab-stops".toList, "[/x]".toList]) =
      .run refused := by rfl
  have hshown : strict.firstRefusal? (refused.shown strict dir) = some .markup := by rfl
  refine ⟨hwords, rfl, hacceptable, hending, ?_, ?_⟩
  · intro code
    rw [hending]
    simp
  · exact ((run_exits_iff strict hrefused rfl dir).1 (.console .markup)).mpr
      (.inr ⟨.markup, hshown, rfl⟩)

end Command

end AsmColumns
