import AsmColumns.Proofs.Comment.Extent

/-!
# A pass over lines

In a pass over consecutive lines each line is entered inside a comment exactly if the line above
leaves one open; the first is entered as the pass is.  With the extents of the comments on a line
this settles, from the text of the lines alone, what is comment in each of them, whatever the reader
has been asked before.
-/

namespace AsmColumns
namespace Line

open Comment (Convention Delimits)

/-- Whether the line of this number is entered inside a comment, in a pass with these readings. -/
def entersOpen (continued : Bool) (readings : List Reading) : Nat → Bool
  | 0 => continued
  | number + 1 => readings[number]?.any (·.endsOpen)

/-- The reading of each line of a pass is that of the line alone, entered as the pass enters it. -/
theorem getElem?_readLines (conv : Convention) (continued : Bool) (lines : List (Option Text))
    (number : Nat) :
    (readLines conv continued lines)[number]? =
      lines[number]?.map (read conv (entersOpen continued (readLines conv continued lines) number)) := by
  induction lines generalizing continued number with
  | nil => simp [readLines]
  | cons line rest ih =>
      cases number with
      | zero => rfl
      | succ number =>
          have hrest := ih (read conv continued line).endsOpen number
          cases number with
          | zero => exact hrest
          | succ number => exact hrest

/-- Under the convention of slash and star, a reader that has been asked anything finds the comments
of a line where they are, and hands on from each line of a pass to the next exactly whether a comment
is left open. -/
theorem blockComments_delimited (continued : Bool) (active : Convention) (requests : List Request) :
    let slashStar := Convention.ofStyle .blockSlashStar
    let reader := (({ convention := active } : Reader).respondAll requests).2
    (∀ text : Text,
      let r := (reader.read (some text) continued (some slashStar)).1
      Delimits slashStar continued text r.comments r.endsOpen) ∧
    ∀ lines : List Text,
      let readings := (reader.readLines (lines.map some) continued (some slashStar)).1
      readings.length = lines.length ∧
        ∀ number line, lines[number]? = some line →
          ∃ r, readings[number]? = some r ∧ r.text = line ∧
            Delimits slashStar (entersOpen continued readings number) line r.comments
              r.endsOpen := by
  intro slashStar reader
  have hsound : reader.Sound := ((Reader.faithful_of_empty active).respondAll requests).2.sound
  have hdelimits : ∀ continued text, Delimits slashStar continued text
      (read slashStar continued (some text)).comments
      (read slashStar continued (some text)).endsOpen := by
    intro continued text
    rw [read_of_opening (by rfl), comments_readText, endsOpen_readText]
    exact Comment.delimits_scan (by decide) (by decide) (by decide) continued text
  refine ⟨fun text => ?_, fun lines => ?_⟩
  · rw [(hsound.read (some text) continued (some slashStar)).1]
    exact hdelimits continued text
  · intro readings
    have hreadings : readings = readLines slashStar continued (lines.map some) :=
      (hsound.readLines (lines.map some) continued (some slashStar)).1
    refine ⟨by rw [hreadings, length_readLines, List.length_map], fun number line hline => ?_⟩
    refine ⟨read slashStar (entersOpen continued readings number) (some line), ?_, ?_,
      hdelimits _ line⟩
    · rw [hreadings, getElem?_readLines, List.getElem?_map, hline]
      rfl
    · rw [read_of_opening (by rfl), text_readText]

/-- The slash behind an opening delimiter does not close the comment.  The next line closes it with
its first two characters, and the second of these opens no other comment. -/
theorem blockComments_delimited_overlapping :
    let slashStar := Convention.ofStyle .blockSlashStar
    let lines := ["/*/".toList, "*/*".toList]
    let readings := (({} : Reader).readLines (lines.map some) false (some slashStar)).1
    ∃ r, readings[1]? = some r ∧ entersOpen false readings 1 = true ∧
      Delimits slashStar (entersOpen false readings 1) "*/*".toList r.comments r.endsOpen ∧
      r.comments = [⟨0, 2⟩] ∧ r.endsOpen = false := by
  intro slashStar lines readings
  obtain ⟨-, hlines⟩ := blockComments_delimited false default []
  obtain ⟨-, hdelimits⟩ := hlines lines
  obtain ⟨r, hr, -, hdelimits⟩ := hdelimits 1 "*/*".toList (by rfl)
  have hreadings : readings = readLines slashStar false (lines.map some) :=
    ((Reader.sound_of_empty default).readLines (lines.map some) false (some slashStar)).1
  have hopen : entersOpen false readings 1 = true := by
    rw [hreadings]
    decide
  have hsecond : readings[1]? = some (read slashStar true (some "*/*".toList)) := by
    rw [hreadings]
    rfl
  obtain rfl : read slashStar true (some "*/*".toList) = r :=
    Option.some.inj (hsecond.symm.trans hr)
  exact ⟨_, hr, hopen, hdelimits, by decide, by decide⟩

end Line
end AsmColumns
