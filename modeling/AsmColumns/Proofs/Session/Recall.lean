import AsmColumns.Proofs.Session.Reachable

/-!
# A memory that cannot be seen

Whatever a reader has been asked before, and whatever convention it has been switched to in the
meantime, it answers as if it had no memory.  The memory that allows this is faithful: it holds no
more readings than it may, each is the reading of its key, and none is degraded.  Reading a line
either leaves the memory as it is or remembers one reading that could be made, so it is enough to
look at what remembering does.
-/

namespace AsmColumns
namespace Line

open Comment (Convention)

/-! ## Requests -/

/-- What can be asked of a reader.  A line or a pass is read under the active convention unless the
request names another one. -/
inductive Request where
  | switch (convention : Convention)
  | read (line : Option Text) (continued : Bool) (convention? : Option Convention)
  | readLines (lines : List (Option Text)) (continued : Bool) (convention? : Option Convention)

namespace Request

/-- The active convention behind a request. -/
def convention (active : Convention) : Request → Convention
  | switch conv => conv
  | _ => active

/-- The answer to a request without a memory. -/
def answer (active : Convention) : Request → List Reading
  | switch _ => []
  | read line continued convention? => [Line.read (convention?.getD active) continued line]
  | readLines lines continued convention? =>
      Line.readLines (convention?.getD active) continued lines

def answers (active : Convention) : List Request → List (List Reading)
  | [] => []
  | request :: rest => request.answer active :: answers (request.convention active) rest

end Request

namespace Reader

/-- The answer of a reader, and the reader behind it. -/
def respond (reader : Reader) : Request → List Reading × Reader
  | .switch conv => ([], { reader with convention := conv })
  | .read line continued convention? =>
      let (reading, reader) := reader.read line continued convention?
      ([reading], reader)
  | .readLines lines continued convention? => reader.readLines lines continued convention?

def respondAll (reader : Reader) : List Request → List (List Reading) × Reader
  | [] => ([], reader)
  | request :: rest =>
      let (answer, reader) := reader.respond request
      let (answers, reader) := reader.respondAll rest
      (answer :: answers, reader)

/-! ## Faithful memories -/

structure Faithful (reader : Reader) : Prop where
  sound : reader.Sound
  size_le : reader.memory.size ≤ capacity
  readable : ∀ (key : Key) (reading : Reading),
    reader.memory[key]? = some reading → reading.degraded = false

theorem faithful_of_empty (conv : Convention) : Faithful { convention := conv } := by
  refine ⟨sound_of_empty conv, by simp, ?_⟩
  intro key reading hkey
  simp at hkey

theorem Faithful.remember {reader : Reader} (h : reader.Faithful) (key : Key)
    (hreadable : (Line.read key.convention key.continued (some key.text)).degraded = false) :
    (reader.remember key
      (Line.read key.convention key.continued (some key.text))).Faithful := by
  refine ⟨h.sound.remember key, ?_, ?_⟩
  · -- The memory has room for one reading more, for a full one has just been emptied.
    refine Nat.le_trans Std.HashMap.size_insert_le ?_
    split
    · simp [capacity]
    · omega
  · intro other reading hother
    simp only [Reader.remember, Std.HashMap.getElem?_insert] at hother
    split at hother
    · rw [← Option.some.inj hother]
      exact hreadable
    · split at hother
      · simp at hother
      · exact h.readable other reading hother

/-- What reading a line does to the memory. -/
theorem memory_read (reader : Reader) (line : Option Text) (continued : Bool)
    (convention? : Option Convention) :
    (reader.read line continued convention?).2 = reader ∨
      ∃ key : Key, (Line.read key.convention key.continued (some key.text)).degraded = false ∧
        (reader.read line continued convention?).2 =
          reader.remember key (Line.read key.convention key.continued (some key.text)) := by
  cases line with
  | none => exact .inl rfl
  | some text =>
      rw [Reader.read]
      dsimp only
      split
      · exact .inl rfl
      · split
        · exact .inl rfl
        · next hreadable =>
          exact .inr ⟨⟨text, continued, convention?.getD reader.convention⟩,
            Bool.eq_false_iff.mpr hreadable, rfl⟩

theorem Faithful.read {reader : Reader} (h : reader.Faithful) (line : Option Text)
    (continued : Bool) (convention? : Option Convention) :
    (reader.read line continued convention?).2.Faithful := by
  rcases memory_read reader line continued convention? with hsame | ⟨key, hreadable, hnew⟩
  · rw [hsame]
    exact h
  · rw [hnew]
    exact h.remember key hreadable

theorem Faithful.readLines {reader : Reader} (h : reader.Faithful) (lines : List (Option Text))
    (continued : Bool) (convention? : Option Convention) :
    (reader.readLines lines continued convention?).2.Faithful := by
  induction lines generalizing reader continued with
  | nil => exact h
  | cons line rest ih => exact ih (h.read line continued convention?) _

theorem Faithful.respond {reader : Reader} (h : reader.Faithful) (request : Request) :
    (reader.respond request).1 = request.answer reader.convention ∧
      (reader.respond request).2.convention = request.convention reader.convention ∧
      (reader.respond request).2.Faithful := by
  cases request with
  | switch conv => exact ⟨rfl, rfl, h.sound, h.size_le, h.readable⟩
  | read line continued convention? =>
      obtain ⟨hanswer, -, hconv⟩ := h.sound.read line continued convention?
      exact ⟨congrArg (fun reading => [reading]) hanswer, hconv, h.read line continued convention?⟩
  | readLines lines continued convention? =>
      obtain ⟨hanswer, -, hconv⟩ := h.sound.readLines lines continued convention?
      exact ⟨hanswer, hconv, h.readLines lines continued convention?⟩

theorem Faithful.respondAll {reader : Reader} (h : reader.Faithful) (requests : List Request) :
    (reader.respondAll requests).1 = Request.answers reader.convention requests ∧
      (reader.respondAll requests).2.Faithful := by
  induction requests generalizing reader with
  | nil => exact ⟨rfl, h⟩
  | cons request rest ih =>
      obtain ⟨hanswer, hconv, hfaithful⟩ := h.respond request
      obtain ⟨hanswers, hbehind⟩ := ih hfaithful
      rw [hconv] at hanswers
      refine ⟨?_, hbehind⟩
      simp only [Reader.respondAll, Request.answers, hanswer, hanswers]

end Reader
end Line

/-! ## Sessions -/

namespace Session

open Line (Request)

theorem faithful_step {s t : Session} (h : s.reader.Faithful) (hstep : s.Step t) :
    t.reader.Faithful := by
  have hswitch : ∀ conv, ({ s.reader with convention := conv } : Line.Reader).Faithful :=
    fun conv => (h.respond (.switch conv)).2.2
  cases hstep with
  | stay => exact h
  | switch style => exact hswitch _
  | settle hsettings => exact hswitch _
  | read line continued => exact h.read line continued (some s.convention)
  | pass text => exact h.readLines (text.lines.map some) false (some s.convention)

theorem Reachable.faithful {s : Session} (h : s.Reachable) : s.reader.Faithful :=
  h.induction (P := fun s => s.reader.Faithful)
    (fun _ _ => Line.Reader.faithful_of_empty _) (fun _ _ => faithful_step)

/-- After any requests a reader has given the answers of a reader without a memory, and its memory
is faithful.  A session reads every line under the style that is active in it, and the memory of its
reader is faithful too. -/
theorem recall_invisible :
    (∀ (conv : Comment.Convention) (requests : List Request),
      let behind := ({ convention := conv } : Line.Reader).respondAll requests
      behind.1 = Request.answers conv requests ∧ behind.2.Faithful) ∧
    (∀ s : Session, s.Reachable → ∀ (line : Option Text) (continued : Bool),
      (s.read line continued).1 = Line.read (.ofStyle s.settings.style) continued line ∧
        s.reader.Faithful) := by
  refine ⟨?_, ?_⟩
  · intro conv requests
    exact (Line.Reader.faithful_of_empty conv).respondAll requests
  · intro s hs line continued
    refine ⟨?_, hs.faithful⟩
    rw [← hs.coherent.convention_eq]
    exact (hs.coherent.sound.read line continued (some s.convention)).1

/-- A line that was read as code is read as a comment once its first character opens comments. -/
theorem recall_after_switch :
    let s := [Operation.read (some "# x".toList) false, .activateStyle .lineHash].foldl perform
      (ofSettings {})
    s.Reachable ∧
      (s.read (some "# x".toList) false).1 =
        Line.read (.ofStyle .lineHash) false (some "# x".toList) ∧
      (s.read (some "# x".toList) false).1.kind = .comment ∧ s.reader.Faithful := by
  intro s
  have hreach : s.Reachable := ⟨{}, _, Settings.valid_default, rfl⟩
  obtain ⟨hreading, hfaithful⟩ := recall_invisible.2 s hreach (some "# x".toList) false
  refine ⟨hreach, hreading, ?_, hfaithful⟩
  rw [hreading]
  rfl

end Session
end AsmColumns
