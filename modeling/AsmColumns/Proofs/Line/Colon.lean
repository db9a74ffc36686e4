import AsmColumns.Proofs.Comment.Walk
import AsmColumns.Proofs.Layout.Column
import AsmColumns.Proofs.Line.Reading

/-!
# Tokens before a colon

A token of label characters at the margin, with a colon behind it, stands in front of everything
that could hide it: none of its characters opens a comment or a quotation, so it is code under every
convention, whatever follows the colon.  It is then the label of its line, unless the rule for
directives, which is tried first, takes it apart.  That rule looks for a colon right behind a dot
and a word, and a token may go on there with another dot or a dollar sign.
-/

namespace AsmColumns
namespace Line

open Comment (Convention Walks blanked)
open Text (isBlank isWord allBlank)

/-- Whether a token is a dot and a word with more behind the word. -/
def hidesDirective (token : Text) : Bool :=
  match token with
  | '.' :: rest => !(rest.takeWhile isWord).isEmpty && !(rest.dropWhile isWord).isEmpty
  | _ => false

section token

variable {conv : Convention} {token : Text}

theorem isPlain_of_isLabelChar {c : Char} (h : isLabelChar c = true) :
    Comment.isPlain c = true := by
  simp [Comment.isPlain, h]

/-- A token and its colon are code, and leave nothing open for the rest of the line. -/
theorem exists_marked_token (hsharp : conv.Sharp) (htoken : ∀ c ∈ token, isLabelChar c = true)
    (rest : Text) :
    ∃ marks code, Marked conv false (token ++ [':'] ++ rest) marks ∧
      blanked marks (token ++ [':'] ++ rest) = token ++ [':'] ++ code := by
  have hwalks : Walks conv {} none (token ++ [':']) rest {} := by
    apply Walks.plain hsharp
    intro c hc
    left
    rcases List.mem_append.mp hc with htok | hcolon
    · exact isPlain_of_isLabelChar (htoken c htok)
    · rw [List.mem_singleton.mp hcolon]
      decide
  obtain ⟨marks, leftOpen, hrest⟩ :=
    Comment.exists_scans_code conv {} (Comment.lastOf none (token ++ [':'])) rest
  have hscans := hwalks.scans hrest
  have hentry : Comment.Mode.entry conv false = .code {} none := rfl
  rw [← hentry] at hscans
  refine ⟨_, blanked marks rest, (marked_of_scans hscans).1, ?_⟩
  rw [Comment.blanked_append List.length_replicate, Comment.blanked_replicate_false]

theorem head?_colon_iff {tail : Text} (htail : ∀ c ∈ tail, isLabelChar c = true) :
    (tail ++ [':']).head? = some ':' ↔ tail = [] := by
  cases tail with
  | nil => simp
  | cons c tail =>
      have hc := htail c List.mem_cons_self
      have hne : c ≠ ':' := by
        rintro rfl
        exact absurd hc (by decide)
      simp [hne]

/-- The rule for directives sees the word behind a dot and what touches it. -/
theorem directive?_token (hne : token ≠ []) (htoken : ∀ c ∈ token, isLabelChar c = true) :
    directive? (token ++ [':']) = none ↔ hidesDirective token = false := by
  obtain ⟨c, more, rfl⟩ := List.exists_cons_of_ne_nil hne
  have hc := htoken c List.mem_cons_self
  by_cases hdot : c = '.'
  · subst hdot
    have htail : ∀ c ∈ more.dropWhile isWord, isLabelChar c = true := by
      intro c hmem
      exact htoken c (List.mem_cons_of_mem _ ((List.dropWhile_sublist _).subset hmem))
    have hstops : Text.Stops isWord (more.dropWhile isWord ++ [':']) := by
      have hdrop := Text.stops_dropWhile isWord more
      cases htail : more.dropWhile isWord with
      | nil => exact Text.stops_cons.mpr (by decide)
      | cons d tail =>
          rw [htail] at hdrop
          exact hdrop
    have hword : ∀ c ∈ more.takeWhile isWord, isWord c = true :=
      fun _ hmem => List.mem_takeWhile_imp hmem
    have hdirective : directive? ([] ++ '.' :: (_ ++ _)) = _ := directive?_dot rfl hword hstops
    simp only [← List.append_assoc, List.takeWhile_append_dropWhile, List.nil_append,
      head?_colon_iff htail] at hdirective
    rw [List.cons_append, hdirective, hidesDirective]
    by_cases hword : more.takeWhile isWord = [] <;> by_cases hmore : more.dropWhile isWord = [] <;>
      simp [hword, hmore]
  · have hnone : directive? ([] ++ c :: (more ++ [':'])) = none :=
      directive?_of_ne_dot rfl (isBlank_of_isLabelChar hc) hdot
    apply iff_of_true hnone
    unfold hidesDirective
    split
    · next heq => exact absurd (List.cons.inj heq).1 hdot
    · rfl

theorem exists_of_hidesDirective (h : hidesDirective token = true) :
    ∃ word d tail, token = '.' :: (word ++ d :: tail) ∧ IsHead word (d :: tail) := by
  unfold hidesDirective at h
  split at h
  · next rest =>
    simp only [Bool.and_eq_true, Bool.not_eq_true', List.isEmpty_eq_false_iff] at h
    obtain ⟨d, tail, htail⟩ := List.exists_cons_of_ne_nil h.2
    have hhead := isHead_takeWhile h.1
    rw [htail] at hhead
    refine ⟨rest.takeWhile isWord, d, tail, ?_, hhead⟩
    rw [← htail, List.takeWhile_append_dropWhile]
  · cases h

theorem dropTail_colon (htoken : ∀ c ∈ token, isLabelChar c = true) :
    Text.dropTail (· == ':') (token ++ [':']) = token := by
  rw [Text.dropTail_eq, List.rdropWhile_concat_pos _ _ _ (by rfl), List.rdropWhile_eq_self_iff]
  intro hne hlast
  have hlabel := htoken _ (List.getLast_mem hne)
  rw [beq_iff_eq.mp hlast] at hlabel
  exact absurd hlabel (by decide)

end token

section read

variable {style : Comment.Style} {token rest : Text} (hne : token ≠ [])
  (htoken : ∀ c ∈ token, isLabelChar c = true)
include hne htoken

theorem readText_label (hlabel : hidesDirective token = false) :
    let r := readText (.ofStyle style) false (token ++ [':'] ++ rest)
    r.kind = .label ∧ r.label = some ⟨0, token.length + 1⟩ ∧ r.labelName? = some token := by
  intro r
  obtain ⟨marks, code, hmarked, hcode⟩ :=
    exists_marked_token (Comment.sharp_ofStyle style) htoken rest
  have hisLabel : IsLabel (token ++ [':']) code :=
    ⟨⟨token, hne, htoken, .inl rfl⟩, (directive?_token hne htoken).mpr hlabel⟩
  obtain ⟨gap, head, more, rfl, hfits⟩ := hisLabel.exists_fits
  have hfront : blanked marks (token ++ [':'] ++ rest) =
      Front.text ⟨[], token ++ [':'], gap, head⟩ ++ more := by
    rw [hcode]
    simp [Front.text]
  have hread := readText_of_fits hmarked hfront hfits
  have hspan : r.label = some ⟨0, token.length + 1⟩ := by
    simp [r, hread, Front.reading]
  refine ⟨by simp [r, hread, Front.reading], hspan, ?_⟩
  have hslice : Span.of ⟨0, token.length + 1⟩ (token ++ [':'] ++ rest) = token ++ [':'] := by
    simpa using of_span_append [] (token ++ [':']) rest
  rw [Reading.labelName?, hspan, Option.map_some, text_readText, hslice, dropTail_colon htoken]

theorem readText_directive (hdirective : hidesDirective token = true) :
    let r := readText (.ofStyle style) false (token ++ [':'] ++ rest)
    r.kind = .directive ∧ r.label = none ∧
      r.directive = some ⟨0, (token.tail.takeWhile isWord).length + 1⟩ := by
  intro r
  obtain ⟨marks, code, hmarked, hcode⟩ :=
    exists_marked_token (Comment.sharp_ofStyle style) htoken rest
  obtain ⟨word, d, tail, rfl, hhead⟩ := exists_of_hidesDirective hdirective
  have hcolon : (d :: tail ++ [':'] ++ code).head? ≠ some ':' := by
    have hd := htoken d (by simp)
    rintro hcolon
    rw [Option.some.inj hcolon] at hd
    exact absurd hd (by decide)
  have hfits : Fits .directive ⟨[], [], [], '.' :: word⟩ (d :: tail ++ [':'] ++ code) :=
    .directive rfl (hhead.reset (.inr rfl)) hcolon
  have hfront : blanked marks ('.' :: (word ++ d :: tail) ++ [':'] ++ rest) =
      Front.text ⟨[], [], [], '.' :: word⟩ ++ (d :: tail ++ [':'] ++ code) := by
    rw [hcode]
    simp [Front.text]
  have hword : (word ++ d :: tail).takeWhile isWord = word :=
    Text.takeWhile_append_of_stops hhead.all_isWord hhead.stops
  have hread := readText_of_fits hmarked hfront hfits
  simp [r, hread, Front.reading, Front.headSpan, hword]

end read

/-- In every style, a token at the margin with a colon behind it belongs at the margin.  It is the
label of its line, up to and with the colon, unless it is a dot and a word with more behind the
word: the dot and the word are a directive then. -/
theorem read_token_colon (style : Comment.Style) (token rest : Text) (hne : token ≠ [])
    (htoken : ∀ c ∈ token, isLabelChar c = true) :
    let r := read (.ofStyle style) false (some (token ++ ':' :: rest))
    (∀ page : Layout.Page, page.column r = 0) ∧
      (r.kind = .label ∧ r.label = some ⟨0, token.length + 1⟩ ∧ r.labelName? = some token ↔
        hidesDirective token = false) ∧
      (hidesDirective token = true →
        r.kind = .directive ∧ r.label = none ∧
          r.directive = some ⟨0, (token.tail.takeWhile isWord).length + 1⟩) := by
  intro r
  have hread : r = readText (.ofStyle style) false (token ++ [':'] ++ rest) := by
    rw [List.append_assoc, List.singleton_append]
    exact read_eq_readText (Comment.sharp_ofStyle style) false _
  have hdegraded : r.degraded = false := by
    rw [hread, degraded_readText]
  cases htaken : hidesDirective token with
  | false =>
      obtain ⟨hkind, hlabel, hname⟩ := readText_label hne htoken htaken
      rw [← hread] at hkind hlabel hname
      refine ⟨fun page => ?_, iff_of_true ⟨hkind, hlabel, hname⟩ rfl, nofun⟩
      simp [Layout.Page.column, hdegraded, hkind]
  | true =>
      obtain ⟨hkind, hlabel, hspan⟩ := readText_directive hne htoken htaken
      rw [← hread] at hkind hlabel hspan
      refine ⟨fun page => ?_, iff_of_false ?_ (by simp), fun _ => ⟨hkind, hlabel, hspan⟩⟩
      · simp [Layout.Page.column, hdegraded, hkind]
      · rintro ⟨hother, -⟩
        rw [hkind] at hother
        cases hother

/-- The first part of a local label with two dots is read as a directive; with one dot the label is
read as it is written. -/
theorem read_token_colon_second_dot :
    (read (.ofStyle .lineSemicolon) false (some ".L.str: .asciz".toList)).kind = .directive ∧
      (read (.ofStyle .lineSemicolon) false (some ".Lstr: .asciz".toList)).labelName? =
        some ".Lstr".toList := by
  obtain ⟨-, -, hsplit⟩ := read_token_colon .lineSemicolon ".L.str".toList " .asciz".toList
    (by decide) (List.all_eq_true.mp (by decide))
  obtain ⟨-, hwhole, -⟩ := read_token_colon .lineSemicolon ".Lstr".toList " .asciz".toList
    (by decide) (List.all_eq_true.mp (by decide))
  exact ⟨(hsplit (by decide)).1, (hwhole.mpr (by decide)).2.2⟩

end Line
end AsmColumns
