import AsmColumns.Proofs.Line.Colon
import AsmColumns.Proofs.Line.Parts

/-!
# Labels by themselves

A label is taken from the code of its line, in which comments are blanks, and what ends it may be a
colon of its own, a blank, a comment or the end of the line.  None of its characters is a blank, so
they stand on the line as they do in the code.  Cut off behind the label, the line has nothing but
the label: no comment, quotation or variable can start in it, and the rule for directives, which is
tried first, finds in it what it finds on the whole line.
-/

namespace AsmColumns

open Text (isBlank allBlank)

/-- Code without blanks at the start of a line stands there in the line itself. -/
theorem Comment.prefix_of_prefix_blanked {front t : Text} {marks : List Bool}
    (hink : ∀ c ∈ front, isBlank c = false) (h : front <+: blanked marks t) : front <+: t := by
  induction front generalizing marks t with
  | nil => exact List.nil_prefix
  | cons c front ih =>
      have hc := hink c List.mem_cons_self
      have hmore := fun x hx => hink x (List.mem_cons_of_mem c hx)
      cases marks with
      | nil => rwa [blanked_nil] at h
      | cons mark marks =>
          cases t with
          | nil => cases mark <;> exact absurd h (by simp [blanked])
          | cons d t =>
              cases mark with
              | true =>
                  obtain ⟨rfl, -⟩ := List.cons_prefix_cons.mp h
                  exact absurd hc (by decide)
              | false =>
                  obtain ⟨rfl, hfront⟩ := List.cons_prefix_cons.mp h
                  exact List.cons_prefix_cons.mpr ⟨rfl, ih hmore hfront⟩

namespace Line

open Comment (Convention Walks blanked)

section label

variable {conv : Convention} {continued : Bool} {text label rest : Text} {f : Front}

theorem Fits.isLabel (h : Fits .label f rest) :
    f.lead = [] ∧ IsLabel f.margin (f.gap ++ (f.head ++ rest)) := by
  cases h with
  | label hlabel => exact ⟨rfl, hlabel⟩
  | labelled hlabel => exact ⟨rfl, hlabel⟩

theorem EndsLabel.mem_cases (h : EndsLabel label rest) {c : Char} (hc : c ∈ label) :
    isLabelChar c = true ∨ c = ':' := by
  obtain ⟨run, -, hrun, rfl | ⟨rfl, -⟩⟩ := h
  · rcases List.mem_append.mp hc with hc | hc
    · exact .inl (hrun c hc)
    · exact .inr (List.mem_singleton.mp hc)
  · exact .inl (hrun c hc)

theorem variablesFrom_of_notMem {t : Text} (h : '%' ∉ t) (offset : Nat) :
    variablesFrom offset t = [] := by
  induction t generalizing offset with
  | nil => rfl
  | cons c t ih =>
      rw [List.mem_cons, not_or] at h
      have hc : (c == '%') = false := by simpa using Ne.symm h.1
      rw [variablesFrom, hc, Bool.false_and, if_neg Bool.false_ne_true, ih h.2]

/-- A label with nothing behind it has no comment and leaves none open. -/
theorem EndsLabel.marked (hsharp : conv.Sharp) (h : EndsLabel label rest) :
    Marked conv false label (List.replicate label.length false) ∧
      Comment.scan conv false label = ⟨[], false⟩ := by
  have hwalks : Walks conv {} none label [] {} := by
    apply Walks.plain hsharp
    intro c hc
    left
    rcases h.mem_cases hc with hchar | rfl
    · exact isPlain_of_isLabelChar hchar
    · decide
  have hscans := hwalks.scans .done
  have hentry : Comment.Mode.entry conv false = .code {} none := rfl
  rw [List.append_nil, List.append_nil, ← hentry] at hscans
  obtain ⟨hmarked, hopen⟩ := marked_of_scans hscans
  have hscan : Comment.scan conv false label =
      ⟨(Comment.scan conv false label).spans, (Comment.scan conv false label).leftOpen⟩ := rfl
  rw [hmarked.spells.eq_nil_of_bare, hopen] at hscan
  exact ⟨hmarked, hscan⟩

/-- The whole reading of a label with nothing behind it. -/
theorem IsLabel.readText_eq (hsharp : conv.Sharp) (h : IsLabel label rest) :
    readText conv false label =
      { kind := .label, text := label, label := some ⟨0, label.length⟩ } := by
  obtain ⟨hmarked, hscan⟩ := h.ends.marked hsharp
  have hfits : Fits .label ⟨[], label, [], []⟩ [] :=
    .label ⟨h.ends.reset fun _ => rfl, h.not_directive⟩ rfl
  have hcode : blanked (List.replicate label.length false) label =
      Front.text ⟨[], label, [], []⟩ ++ [] := by
    simp [Front.text]
  have hvars : variablesFrom 0 label = [] := by
    apply variablesFrom_of_notMem
    intro hpercent
    rcases h.ends.mem_cases hpercent with hchar | hcolon
    · exact absurd hchar (by decide)
    · exact absurd hcolon (by decide)
  rw [readText_of_fits hmarked hcode hfits]
  simp [Front.reading, Front.operand?, unsorted, hscan, hvars]

/-- A labelled line starts with its label. -/
theorem exists_isLabel (hkind : (readText conv continued text).kind = .label) :
    ∃ label rest tail, text = label ++ tail ∧ IsLabel label rest ∧
      (readText conv continued text).label = some ⟨0, label.length⟩ := by
  obtain ⟨marks, h, hblank | ⟨hink, hshapeless⟩ | ⟨kind, f, rest, hcode, hfits⟩⟩ :=
    readText_cases conv continued text
  · rcases (readText_of_allBlank h hblank).2 with hother | ⟨hother, -⟩ <;>
      simp [hother] at hkind
  · simp [readText_of_shapeless h hink hshapeless] at hkind
  · have hread := readText_of_fits h hcode hfits
    rw [hread] at hkind ⊢
    obtain rfl : kind = .label := hkind
    obtain ⟨hlead, hlabel⟩ := hfits.isLabel
    have hprefix : f.margin <+: blanked marks text :=
      ⟨f.gap ++ (f.head ++ rest), by simp [hcode, Front.text, hlead]⟩
    obtain ⟨tail, htail⟩ := Comment.prefix_of_prefix_blanked hlabel.ends.ink.2 hprefix
    exact ⟨f.margin, _, tail, htail.symm, hlabel, rfl⟩

end label

/-- On every labelled line, in every style, the label stands at the margin.  With the line cut off
behind it, it is read again as that label, with its name, and nothing else is read with it. -/
theorem read_label_alone (style : Comment.Style) (continued : Bool) (line : Text)
    (hkind : (read (.ofStyle style) continued (some line)).kind = .label) :
    ∃ k, 1 ≤ k ∧ k ≤ line.length ∧
      (read (.ofStyle style) continued (some line)).label = some ⟨0, k⟩ ∧
      read (.ofStyle style) false (some (line.take k)) =
        { kind := .label, text := line.take k, label := some ⟨0, k⟩ } ∧
      (read (.ofStyle style) false (some (line.take k))).code = [(.label, ⟨0, k⟩)] ∧
      (read (.ofStyle style) false (some (line.take k))).comments = [] ∧
      (read (.ofStyle style) false (some (line.take k))).labelName? =
        (read (.ofStyle style) continued (some line)).labelName? := by
  have hsharp := Comment.sharp_ofStyle style
  simp only [read_eq_readText hsharp] at hkind ⊢
  obtain ⟨label, rest, tail, rfl, hlabel, hspan⟩ := exists_isLabel hkind
  have hpos : 1 ≤ label.length := List.length_pos_iff.mpr hlabel.ends.ink.1
  have hname : Span.of ⟨0, label.length⟩ label = Span.of ⟨0, label.length⟩ (label ++ tail) := by
    simp [Span.of, Span.stop, Text.slice]
  refine ⟨label.length, hpos, by simp, hspan, ?_⟩
  rw [List.take_left, hlabel.readText_eq hsharp]
  refine ⟨rfl, rfl, rfl, ?_⟩
  simp only [Reading.labelName?, hspan, text_readText, Option.map_some, hname]

/-- A comment that touches a label ends it, and so does the end of the line. -/
theorem read_label_alone_before_comment :
    let line := "$a.1/* b */:".toList
    (read (.ofStyle .blockSlashStar) false (some line)).kind = .label ∧
      (read (.ofStyle .blockSlashStar) false (some line)).label = some ⟨0, 4⟩ ∧
      read (.ofStyle .blockSlashStar) false (some "$a.1".toList) =
        { kind := .label, text := "$a.1".toList, label := some ⟨0, 4⟩ } := by
  intro line
  have hkind : (read (.ofStyle .blockSlashStar) false (some line)).kind = .label := by
    decide +kernel
  have hlabel : (read (.ofStyle .blockSlashStar) false (some line)).label = some ⟨0, 4⟩ := by
    decide +kernel
  obtain ⟨k, -, -, hspan, halone, -⟩ := read_label_alone .blockSlashStar false line hkind
  obtain rfl : 4 = k := by
    rw [hlabel] at hspan
    exact (Span.mk.inj (Option.some.inj hspan)).2
  exact ⟨hkind, hlabel, halone⟩

end Line
end AsmColumns
