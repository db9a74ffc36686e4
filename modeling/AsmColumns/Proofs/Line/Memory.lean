import AsmColumns.Line.Reader

/-!
# The memory of a reader

A memory is sound if every reading in it is the one that its key stands for.  Reading keeps a
memory sound, whatever the convention, so a reader with a sound memory reads as if it had none.
-/

namespace AsmColumns
namespace Line

open Comment (Convention)

namespace Reader

/-- Every reading in the memory is the reading of its key. -/
def Sound (reader : Reader) : Prop :=
  ∀ (key : Key) (reading : Reading), reader.memory[key]? = some reading →
    reading = Line.read key.convention key.continued (some key.text)

theorem sound_of_empty (conv : Convention) : Sound { convention := conv } := by
  intro key reading hkey
  simp at hkey

theorem Sound.remember {reader : Reader} (h : reader.Sound) (key : Key) :
    (reader.remember key (Line.read key.convention key.continued (some key.text))).Sound := by
  intro other reading hother
  simp only [Reader.remember, Std.HashMap.getElem?_insert] at hother
  split at hother
  · next hkey =>
    have heq : key = other := by simpa using hkey
    subst heq
    exact (Option.some.inj hother).symm
  · split at hother
    · simp at hother
    · exact h other reading hother

theorem Sound.read {reader : Reader} (h : reader.Sound) (line : Option Text) (continued : Bool)
    (convention? : Option Convention) :
    (reader.read line continued convention?).1 =
        Line.read (convention?.getD reader.convention) continued line ∧
      (reader.read line continued convention?).2.Sound ∧
      (reader.read line continued convention?).2.convention = reader.convention := by
  cases line with
  | none => exact ⟨rfl, h, rfl⟩
  | some text =>
      rw [Reader.read]
      dsimp only
      split
      · next reading hreading => exact ⟨h _ _ hreading, h, rfl⟩
      · refine ⟨rfl, ?_, ?_⟩
        · split
          · exact h
          · exact h.remember ⟨text, continued, convention?.getD reader.convention⟩
        · split <;> rfl

theorem Sound.readLines {reader : Reader} (h : reader.Sound) (lines : List (Option Text))
    (continued : Bool) (convention? : Option Convention) :
    (reader.readLines lines continued convention?).1 =
        Line.readLines (convention?.getD reader.convention) continued lines ∧
      (reader.readLines lines continued convention?).2.Sound ∧
      (reader.readLines lines continued convention?).2.convention = reader.convention := by
  induction lines generalizing reader continued with
  | nil => exact ⟨rfl, h, rfl⟩
  | cons line rest ih =>
      obtain ⟨hreading, hsound, hconv⟩ := h.read line continued convention?
      obtain ⟨hrest, hsound', hconv'⟩ :=
        ih hsound (reader.read line continued convention?).1.endsOpen
      rw [hreading, hconv] at hrest
      rw [Reader.readLines, Line.readLines]
      refine ⟨?_, hsound', hconv'.trans hconv⟩
      simp only [hreading, hrest]

end Reader

theorem length_readLines (conv : Convention) (continued : Bool) (lines : List (Option Text)) :
    (readLines conv continued lines).length = lines.length := by
  induction lines generalizing continued with
  | nil => rfl
  | cons line rest ih => simp [readLines, ih]

end Line
end AsmColumns
