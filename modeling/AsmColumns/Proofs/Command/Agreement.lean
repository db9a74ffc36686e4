import AsmColumns.Proofs.Command.Printing
import AsmColumns.Proofs.Command.Replace
import AsmColumns.Proofs.Layout.Preservation
import AsmColumns.Proofs.Layout.Settled

/-!
# Checking, showing and writing agree

The commands compare the lines of a text with the lines of its layout, one by one.  A layout has as
many lines as its text, so no line goes unchecked, and its lines end in no blank, so that a text
which is its own layout up to blanks at the ends of its lines is not off layout anywhere.  A check
complains exactly if writing the layout changes the file.

That the bytes of the file change takes an argument.  The text of a file is what its bytes decode
to, without a byte order mark and with all line ends made newlines.  A layout holds no carriage
return, and it cannot start with a mark that the text has not, for it never has more ink.

All this holds of every host, for the commands whose items its console takes.
-/

namespace AsmColumns
namespace Command

open Text (ink)

/-! ## Source files -/

theorem close_body (text : Text) : (Source.ofText text).close (Source.ofText text).body = text := by
  unfold Source.ofText
  split
  · next hlast => exact List.dropLast_append_getLast? _ hlast
  · rfl

theorem newline_ofText (text : Text) :
    (Source.ofText text).newline = true ↔ text.getLast? = some '\n' := by
  unfold Source.ofText
  split <;> simp_all

theorem close_inj {source : Source} {a b : Text} (h : source.close a = source.close b) : a = b := by
  unfold Source.close at h
  split at h
  · exact List.append_cancel_right h
  · exact h

theorem ink_close (source : Source) (body : Text) : ink (source.close body) = ink body := by
  unfold Source.close
  split <;> simp

/-! ## Lines off layout -/

theorem mem_misalignedFrom {start number : Nat} {olds news : List Text} :
    number ∈ misalignedFrom start olds news ↔
      ∃ i old new, number = start + i ∧ olds[i]? = some old ∧ news[i]? = some new ∧
        old.trimRight ≠ new := by
  induction olds generalizing start news with
  | nil => simp [misalignedFrom]
  | cons old olds ih =>
      cases news with
      | nil => simp [misalignedFrom]
      | cons new news =>
          have hstep : number ∈ misalignedFrom start (old :: olds) (new :: news) ↔
              (number = start ∧ old.trimRight ≠ new) ∨
                number ∈ misalignedFrom (start + 1) olds news := by
            rw [misalignedFrom]
            split <;> simp_all
          rw [hstep, ih]
          constructor
          · rintro (⟨rfl, hne⟩ | ⟨i, before, after, rfl, hbefore, hafter, hne⟩)
            · exact ⟨0, old, new, rfl, rfl, rfl, hne⟩
            · exact ⟨i + 1, before, after, by omega, hbefore, hafter, hne⟩
          · rintro ⟨i, before, after, rfl, hbefore, hafter, hne⟩
            cases i with
            | zero =>
                cases hbefore
                cases hafter
                exact .inl ⟨rfl, hne⟩
            | succ i => exact .inr ⟨i, before, after, by omega, hbefore, hafter, hne⟩

theorem pairwise_misalignedFrom (start : Nat) (olds news : List Text) :
    (misalignedFrom start olds news).Pairwise (· < ·) := by
  induction olds generalizing start news with
  | nil => simp [misalignedFrom]
  | cons old olds ih =>
      cases news with
      | nil => simp [misalignedFrom]
      | cons new news =>
          rw [misalignedFrom]
          split
          · exact ih (start + 1) news
          · refine List.pairwise_cons.mpr ⟨fun number hnumber => ?_, ih (start + 1) news⟩
            obtain ⟨i, -, -, rfl, -⟩ := mem_misalignedFrom.mp hnumber
            omega

/-- A text and its layout, compared line by line. -/
structure Compares (body laid : Text) : Prop where
  length_eq : laid.lines.length = body.lines.length
  trimmed : ∀ line ∈ laid.lines, line.trimRight = line
  mem_iff : ∀ number, number ∈ misaligned body laid ↔
    ∃ i old new, number = i + 1 ∧ body.lines[i]? = some old ∧ laid.lines[i]? = some new ∧
      old.trimRight ≠ new
  sorted : (misaligned body laid).Pairwise (· < ·)
  eq_nil_iff : misaligned body laid = [] ↔ laid = Text.unlines (body.lines.map Text.trimRight)

end Command

namespace Session

open Command (Compares misaligned)
open Text (ink)

variable {s : Session} {body laid : Text}

theorem Coherent.compares (h : s.Coherent) (hlaid : (s.layout body).1 = .ok laid) :
    Compares body laid := by
  have hlines := h.layout_eq_ok_iff.mp hlaid
  have hlength : body.lines.length = laid.lines.length := by
    have hlength := (layoutLines_eq_ok_iff.mp hlines).length_eq
    rwa [Settings.readLines, Line.length_readLines, List.length_map] at hlength
  refine ⟨hlength.symm, Settings.trimRight_of_mem_layoutLines h.valid hlines, fun number => ?_,
    Command.pairwise_misalignedFrom .., ?_⟩
  · rw [misaligned, Command.mem_misalignedFrom]
    simp only [Nat.add_comm 1]
  · rw [misaligned, Command.misalignedFrom_eq_nil_iff hlength]
    constructor
    · intro hsame
      rw [hsame, Text.unlines_lines]
    · intro hsame
      have hnewline : ∀ line ∈ body.lines.map Text.trimRight, '\n' ∉ line := by
        intro line hline hmem
        obtain ⟨old, hold, rfl⟩ := List.mem_map.mp hline
        exact Text.newline_notMem_of_mem_lines hold (Layout.subset_trimRight old hmem)
      rw [hsame, Text.lines_unlines (by simp [Text.lines_ne_nil]) hnewline]

theorem ink_unlines_cons (line : Text) (later : List Text) :
    ink (Text.unlines (line :: later)) = ink line ++ ink (Text.unlines later) := by
  cases later with
  | nil => simp [Text.unlines]
  | cons next rest => simp [Text.unlines]

/-- The layout of a text never has more ink than the text. -/
theorem Coherent.length_ink_layout_le (h : s.Coherent) (hlaid : (s.layout body).1 = .ok laid) :
    (ink laid).length ≤ (ink body).length := by
  have hpairs := forall₂_of_layoutLines (h.layout_eq_ok_iff.mp hlaid)
  rw [← Text.unlines_lines laid, ← Text.unlines_lines body]
  generalize body.lines = olds at hpairs ⊢
  generalize laid.lines = news at hpairs ⊢
  induction hpairs with
  | nil => exact le_rfl
  | cons hfirst _ ih =>
      obtain ⟨continued, hfirst⟩ := hfirst
      have hle := Layout.length_ink_page_line_le h.valid hfirst
      rw [ink_unlines_cons, ink_unlines_cons, List.length_append, List.length_append]
      omega

theorem mem_unlines_iff {c : Char} (hc : c ≠ '\n') (lines : List Text) :
    c ∈ Text.unlines lines ↔ ∃ line ∈ lines, c ∈ line := by
  induction lines with
  | nil => simp [Text.unlines]
  | cons line later ih =>
      by_cases hlater : later = []
      · simp [hlater, Text.unlines]
      · rw [Text.unlines_cons hlater, List.mem_append, List.mem_cons, ih]
        simp [hc]

/-- The layout of a text holds no character but the space that the text does not hold. -/
theorem Coherent.notMem_layout (h : s.Coherent) (hlaid : (s.layout body).1 = .ok laid)
    {c : Char} (hspace : c ≠ ' ') (hnewline : c ≠ '\n') (hbody : c ∉ body) : c ∉ laid := by
  rw [← Text.unlines_lines body, mem_unlines_iff hnewline] at hbody
  rw [← Text.unlines_lines laid, mem_unlines_iff hnewline]
  rintro ⟨new, hnew, hmem⟩
  refine notMem_of_layoutLines h.valid (h.layout_eq_ok_iff.mp hlaid) hspace ?_ new hnew hmem
  exact fun line hline hmem => hbody ⟨line, hline, hmem⟩

end Session

namespace Command

variable {host : Host} {request : Request} {dir : Directory} {session : Session}
  {text laid : Text}

/-! ## The session of a request -/

theorem valid_ofDocument {path : Directory.Path} {value : Value} {settings : Settings}
    (h : Settings.ofDocument path value = .ok settings) : settings.Valid := by
  unfold Settings.ofDocument at h
  split at h
  · cases h
    exact Settings.valid_default
  · next entries =>
    dsimp only at h
    split at h
    · cases h
    · split at h
      · cases h
      · cases hmapping : Settings.ofMapping entries with
        | error rejection =>
            rw [hmapping] at h
            cases h
        | ok loaded =>
            rw [hmapping] at h
            cases h
            exact Settings.update_valid hmapping
  · cases h

theorem valid_fileSettings {settings : Settings}
    (h : request.fileSettings host dir = .ok settings) : settings.Valid := by
  unfold Request.fileSettings at h
  split at h
  · cases h
    exact Settings.valid_default
  · cases h
    exact Settings.valid_default
  · unfold Settings.load at h
    split at h
    · cases h
    · cases h
    · split at h
      · cases h
      · split at h
        · cases h
        · cases h
        · exact valid_ofDocument h

theorem reachable_of_overriding {settings : Settings} {options : List (Value × Value)}
    (hvalid : settings.Valid) (h : overriding settings options = .ok session) :
    session.Reachable := by
  unfold overriding at h
  split at h
  · cases h
    exact Session.reachable_ofSettings hvalid
  · split at h
    · cases h
    · refine ⟨settings, [.configure options], hvalid, ?_⟩
      split at h
      · next configured hconfigure =>
        cases h
        simp [Session.perform, hconfigure]
      · cases h

theorem reachable_of_session (h : request.session host dir = .ok session) :
    session.Reachable := by
  unfold Request.session at h
  split at h
  · cases h
  · next settings hsettings =>
    split at h
    · cases h
    · next options _ =>
      cases hoverriding : overriding settings options with
      | error rejection =>
          rw [hoverriding] at h
          cases h
      | ok configured =>
          rw [hoverriding] at h
          cases h
          exact reachable_of_overriding (valid_fileSettings hsettings) hoverriding

theorem prepare_eq_ok_iff :
    request.prepare host dir = .ok (session, text) ↔
      request.session host dir = .ok session ∧ ∃ bytes, dir.read (.ofText request.path) = .ok bytes ∧
        Directory.decodeMarked? bytes = some text := by
  constructor
  · intro h
    unfold Request.prepare at h
    split at h
    · cases h
    · next hsession =>
      split at h
      · cases h
      · next bytes hbytes =>
        split at h
        · cases h
        · next htext =>
          cases h
          exact ⟨hsession, bytes, hbytes, htext⟩
  · rintro ⟨hsession, bytes, hbytes, htext⟩
    simp only [Request.prepare, hsession, hbytes, htext]

/-! ## Running the commands -/

/-- The request for another command on the same file, with the same settings. -/
def Request.as (request : Request) (verb : Verb) (write diff : Bool) : Request :=
  { request with verb, write, diff }

theorem layout_behind_report (h : session.Coherent) (body : Text) :
    ((session.report body).2.layout body).1 = (session.layout body).1 := by
  have hbehind : (session.report body).2.Coherent := h.readText body
  exact (hbehind.layout_eq body).trans (h.layout_eq body).symm

/-- The file that the commands of a request work on. -/
def Request.work (request : Request) (session : Session) (text laid : Text) : Work :=
  ⟨.ofText request.path, .ofText text, (session.report (Source.ofText text).body).1, laid⟩

theorem run_of_ok (hprepared : request.prepare host dir = .ok (session, text))
    (hlaid : (session.layout (Source.ofText text).body).1 = .ok laid) (verb : Verb)
    (write diff : Bool) :
    (request.as verb write diff).run host dir =
      match verb with
      | .showLines => runShow host dir (request.work session text laid)
      | .check => runCheck host dir (request.work session text laid)
      | .indent =>
          runIndent host dir (request.as verb write diff) (request.work session text laid) := by
  have hsame : (request.as verb write diff).prepare host dir = .ok (session, text) := hprepared
  have h := (reachable_of_session (prepare_eq_ok_iff.mp hprepared).1).coherent
  have hbehind := (layout_behind_report h (Source.ofText text).body).trans hlaid
  rw [Request.run, hsame]
  simp only [hbehind]
  cases verb <;> rfl

theorem run_of_error {fault : Layout.Fault}
    (hprepared : request.prepare host dir = .ok (session, text))
    (hlaid : (session.layout (Source.ofText text).body).1 = .error fault) (verb : Verb)
    (write diff : Bool) :
    (request.as verb write diff).run host dir =
      { ending := .failed (.layout fault), directory := dir } := by
  have hsame : (request.as verb write diff).prepare host dir = .ok (session, text) := hprepared
  have h := (reachable_of_session (prepare_eq_ok_iff.mp hprepared).1).coherent
  have hbehind := (layout_behind_report h (Source.ofText text).body).trans hlaid
  rw [Request.run, hsame]
  simp only [hbehind]

theorem layout_nil (h : session.Coherent) (hlaid : (session.layout []).1 = .ok laid) :
    laid = [] := by
  have hkind : (session.settings.read false []).kind = .blank := by
    rw [Settings.read]
    cases session.settings.style <;> rfl
  have hline : session.settings.page.line (session.settings.read false []) = .ok [] := by
    rw [Layout.Page.line, hkind]
  have hlines := h.layout_eq_ok_iff.mp hlaid
  obtain ⟨first, later, hfirst, hlater, hlaid⟩ :=
    List.forall₂_cons_left_iff.mp (Session.layoutLines_eq_ok_iff.mp hlines)
  obtain rfl := List.forall₂_nil_left_iff.mp hlater
  obtain rfl : first = [] := Except.ok.inj (hfirst.symm.trans hline)
  rw [← Text.unlines_lines laid, hlaid]
  rfl

/-- A text whose layout is read as the text itself is not off layout. -/
theorem misaligned_eq_nil_of_decode (h : session.Coherent) (hreturn : '\r' ∉ text)
    (hlaid : (session.layout (Source.ofText text).body).1 = .ok laid)
    (hdecode : Directory.decodeMarked? (Directory.encode ((Source.ofText text).close laid)) =
      some text) : misaligned (Source.ofText text).body laid = [] := by
  have htext := close_body text
  have hclose : ∀ t, '\r' ∈ (Source.ofText text).close t ↔ '\r' ∈ t := by
    intro t
    unfold Source.close
    split <;> simp
  have hbody : '\r' ∉ (Source.ofText text).body := by rwa [← hclose, htext]
  have hcontent : '\r' ∉ (Source.ofText text).close laid := by
    rw [hclose]
    exact h.notMem_layout hlaid (by decide) (by decide) hbody
  rcases Directory.eq_of_decodeMarked?_encode hcontent hdecode with
    rfl | hsame | ⟨mark, hmark, hsame⟩
  · rw [layout_nil h hlaid]
    rfl
  · have hbody : (Source.ofText text).body = laid := close_inj (htext.trans hsame)
    have hcompares := h.compares hlaid
    rw [hcompares.eq_nil_iff, hbody, List.map_congr_left hcompares.trimmed, List.map_id',
      Text.unlines_lines]
  · have hle := h.length_ink_layout_le hlaid
    rw [← ink_close (Source.ofText text) laid, hsame,
      ← ink_close (Source.ofText text) (Source.ofText text).body, htext,
      Text.ink_cons_of_not_blank hmark, List.length_cons] at hle
    omega

/-- What the commands of a request do to a file whose text is laid out. -/
structure Agree (host : Host) (request : Request) (dir : Directory) (source : Source)
    (laid : Text) : Prop where
  check_ending : ∀ write diff, host.Prints ((request.as .check write diff).shown host dir) →
    ((request.as .check write diff).run host dir).ending =
      .exit (if misaligned source.body laid = [] then exitOk else exitMisaligned)
  check_iff : ∀ write diff diff', host.Prints ((request.as .check write diff).shown host dir) →
    host.Prints ((request.as .indent true diff').shown host dir) →
    (((request.as .check write diff).run host dir).ending = .exit exitMisaligned ↔
      ((request.as .indent true diff').run host dir).directory.read (.ofText request.path) ≠
        dir.read (.ofText request.path))
  written : ∀ diff, host.Prints ((request.as .indent true diff).shown host dir) →
    misaligned source.body laid ≠ [] →
    ((request.as .indent true diff).run host dir).ending = .exit exitOk ∧
      ((request.as .indent true diff).run host dir).directory.read (.ofText request.path) =
        .ok (Directory.encode (source.close laid))
  untouched : ∀ write diff,
    ((request.as .showLines write diff).run host dir).directory = dir ∧
      ((request.as .check write diff).run host dir).directory = dir ∧
      ((request.as .indent false diff).run host dir).directory = dir ∧
      (misaligned source.body laid = [] →
        ((request.as .indent write diff).run host dir).directory = dir)

theorem directory_runShow (work : Work) : (runShow host.accepting dir work).directory = dir := by
  unfold runShow
  cases Item.lineTable work.name work.reports with
  | error e => rfl
  | ok table => simp

theorem runIndent_of_nil {request : Request} {work : Work}
    (h : request.write = false ∨ work.misaligned = []) :
    (runIndent host.accepting dir request work).directory = dir := by
  have hguard : (request.write && !work.misaligned.isEmpty) = false := by
    rcases h with h | h <;> simp [h]
  simp [runIndent, writeLayout, hguard]

theorem runIndent_of_write {request : Request} {work : Work} {written : Directory}
    (hwrite : request.write = true) (hne : work.misaligned ≠ [])
    (hreplace : replaceFile dir work.path (work.source.close work.laidOut) = .ok written) :
    (runIndent host.accepting dir request work).ending = .exit exitOk ∧
      (runIndent host.accepting dir request work).directory = written := by
  have hguard : (request.write && !work.misaligned.isEmpty) = true := by simp [hwrite, hne]
  simp [runIndent, writeLayout, hguard, hreplace]

theorem agree_of_layout (hprepared : request.prepare host dir = .ok (session, text))
    (hwritable : dir.Writable (.withEnding (.ofText request.path) temporaryEnding))
    (hlaid : (session.layout (Source.ofText text).body).1 = .ok laid) :
    Agree host request dir (Source.ofText text) laid := by
  obtain ⟨hsession, bytes, hread, htext⟩ := prepare_eq_ok_iff.mp hprepared
  have h := (reachable_of_session hsession).coherent
  -- The console has no say in what is prepared, so the commands can be run on one that takes all.
  have haccepting : request.prepare host.accepting dir = .ok (session, text) := hprepared
  have hcheck : ∀ write diff, host.Prints ((request.as .check write diff).shown host dir) →
      ((request.as .check write diff).run host dir).ending =
        .exit (if misaligned (Source.ofText text).body laid = [] then exitOk
          else exitMisaligned) := by
    intro write diff hprints
    rw [run_of_prints hprints, run_of_ok haccepting hlaid]
    simp [runCheck, Work.misaligned, Request.work]
  have hwritten : ∀ diff, host.Prints ((request.as .indent true diff).shown host dir) →
      misaligned (Source.ofText text).body laid ≠ [] →
      ((request.as .indent true diff).run host dir).ending = .exit exitOk ∧
        ((request.as .indent true diff).run host dir).directory.read (.ofText request.path) =
          .ok (Directory.encode ((Source.ofText text).close laid)) := by
    intro diff hprints hne
    obtain ⟨written, hreplace, hnew⟩ :=
      exists_replaceFile hread hwritable ((Source.ofText text).close laid)
    have hwrite : (request.as .indent true diff).write = true := rfl
    have hoff : (request.work session text laid).misaligned ≠ [] := hne
    obtain ⟨hending, hdirectory⟩ := @runIndent_of_write host dir _ _ _ hwrite hoff hreplace
    rw [run_of_prints hprints, run_of_ok haccepting hlaid]
    refine ⟨hending, ?_⟩
    rw [hdirectory]
    exact hnew
  have huntouched : misaligned (Source.ofText text).body laid = [] → ∀ write diff,
      ((request.as .indent write diff).run host dir).directory = dir := by
    intro hnil write diff
    apply directory_run_of_accepting
    rw [run_of_ok haccepting hlaid]
    exact runIndent_of_nil (.inr hnil)
  refine ⟨hcheck, ?_, hwritten, ?_⟩
  · intro write diff diff' hprints hprints'
    rw [hcheck write diff hprints]
    by_cases hnil : misaligned (Source.ofText text).body laid = []
    · simp [hnil, huntouched hnil, exitOk, exitMisaligned]
    · rw [if_neg hnil, (hwritten diff' hprints' hnil).2, hread]
      refine iff_of_true rfl fun hsame => hnil ?_
      refine misaligned_eq_nil_of_decode h (Directory.return_notMem_of_decodeMarked? htext) hlaid ?_
      rw [Except.ok.inj hsame, htext]
  · intro write diff
    refine ⟨?_, ?_, ?_, fun hnil => huntouched hnil write diff⟩
    · apply directory_run_of_accepting
      rw [run_of_ok haccepting hlaid]
      exact directory_runShow _
    · apply directory_run_of_accepting
      rw [run_of_ok haccepting hlaid]
      simp [runCheck]
    · apply directory_run_of_accepting
      rw [run_of_ok haccepting hlaid]
      exact runIndent_of_nil (.inl rfl)

/-- In any session on valid settings a text is laid out line by line, and the lines off layout are
those that differ from their layout by more than blanks at their ends; or a line of it asks for a
column that is too far out.  On a file that can be read and written beside, and on a console that
takes what is shown, a check exits with 1 exactly if writing changes the bytes of the file, which
then are those of the layout, with the final newline that the text had.  Nothing else changes the
directory, and nothing at all does if the text has no layout, on any console. -/
theorem commands_agree :
    (∀ s : Session, s.Reachable → ∀ body : Text,
      match (s.layout body).1 with
      | .ok laid =>
          List.Forall₂ (fun r line => s.page.line r = .ok line) (s.readText body).1 laid.lines ∧
            Compares body laid
      | .error fault => fault = .tooWide ∧
          ∃ line ∈ body.lines,
            Layout.Overflows s.settings.stops s.settings.commentColumn line.length) ∧
    (∀ (host : Host) (request : Request) (dir : Directory) (session : Session) (text : Text),
      request.prepare host dir = .ok (session, text) →
      dir.Writable (.withEnding (.ofText request.path) temporaryEnding) →
      let source := Source.ofText text
      session.Reachable ∧ source.close source.body = text ∧
      (source.newline = true ↔ text.getLast? = some '\n') ∧
      match (session.layout source.body).1 with
      | .ok laid => Agree host request dir source laid
      | .error _ => ∀ verb write diff, (request.as verb write diff).run host dir =
          { ending := .failed (.layout .tooWide), directory := dir }) := by
  refine ⟨?_, ?_⟩
  · intro s hs body
    have h := hs.coherent
    rcases h.layout_cases body with ⟨lines, hok, -, -⟩ | ⟨herror, hover⟩
    · rw [hok]
      refine ⟨?_, h.compares hok⟩
      rw [h.readText_settings, h.page_eq]
      exact Session.layoutLines_eq_ok_iff.mp (h.layout_eq_ok_iff.mp hok)
    · rw [herror]
      exact ⟨rfl, hover⟩
  · intro host request dir session text hprepared hwritable source
    have hs := reachable_of_session (prepare_eq_ok_iff.mp hprepared).1
    refine ⟨hs, close_body text, newline_ofText text, ?_⟩
    rcases hs.coherent.layout_cases source.body with ⟨lines, hok, -, -⟩ | ⟨herror, -⟩
    · rw [hok]
      exact agree_of_layout hprepared hwritable hok
    · rw [herror]
      exact run_of_error hprepared herror

/-- A check of a file with one line, which stands one column in, exits with 1, and writing moves the
line and keeps the final newline. -/
theorem commands_agree_one_column_in :
    let dir : Directory := ⟨[("a.s".toList, .file (Directory.encode " mov\n".toList))]⟩
    let request : Request := { verb := .check, path := "a.s".toList }
    dir.Writable (.withEnding (.ofText request.path) temporaryEnding) ∧
      ((request.as .check false false).run .standard dir).ending = .exit exitMisaligned ∧
      ((request.as .indent true false).run .standard dir).directory.read (.ofText request.path) =
        .ok (Directory.encode "        mov\n".toList) := by
  intro dir request
  have hwritable : dir.Writable (.withEnding (.ofText request.path) temporaryEnding) :=
    fun bytes => ⟨_, rfl⟩
  have hprepared : request.prepare .standard dir =
      .ok (Session.ofSettings {}, " mov\n".toList) :=
    prepare_eq_ok_iff.mpr
      ⟨rfl, _, rfl, Directory.decodeMarked?_encode (by decide) (by decide)⟩
  have hlaid : ((Session.ofSettings {}).layout (Source.ofText " mov\n".toList).body).1 =
      .ok "        mov".toList :=
    (Session.coherent_ofSettings Settings.valid_default).layout_eq_ok_iff.mpr (by rfl)
  have hagree := (commands_agree.2 .standard request dir _ _ hprepared hwritable).2.2.2
  rw [hlaid] at hagree
  exact ⟨hwritable, hagree.check_ending false false (Host.prints_standard _),
    (hagree.written false (Host.prints_standard _) (by decide)).2⟩

/-- A comment column beyond the longest run of spaces is a valid setting, and no text is the layout
of a comment that belongs there.  A check of the file ends without an exit status. -/
theorem no_layout_beyond_longest_run :
    let settings : Settings := { commentColumn := 9223372036854775808 }
    let dir : Directory := ⟨[("a.s".toList, .file (Directory.encode "; a".toList))]⟩
    let request : Request :=
      { verb := .check, path := "a.s".toList, commentColumn := some 9223372036854775808 }
    settings.Valid ∧
      request.prepare .standard dir = .ok (Session.ofSettings settings, "; a".toList) ∧
      (∀ laid, ((Session.ofSettings settings).layout "; a".toList).1 ≠ .ok laid) ∧
      (request.run .standard dir).ending = .failed (.layout .tooWide) := by
  intro settings dir request
  have hvalid : settings.Valid := ⟨by decide, by decide, by decide, by decide⟩
  have hprepared : request.prepare .standard dir =
      .ok (Session.ofSettings settings, "; a".toList) :=
    prepare_eq_ok_iff.mpr
      ⟨rfl, _, rfl, Directory.decodeMarked?_encode (by decide) (by decide)⟩
  have herror : ((Session.ofSettings settings).layout "; a".toList).1 = .error .tooWide :=
    ((Session.coherent_ofSettings hvalid).layout_eq _).trans (by rfl)
  refine ⟨hvalid, hprepared, fun laid hlaid => ?_, ?_⟩
  · rw [herror] at hlaid
    cases hlaid
  · exact congrArg Outcome.ending (run_of_error hprepared herror .check false false)

end Command

end AsmColumns
