import AsmColumns.Proofs.Line.Reading

/-!
# The parts of a line

The spans of a reading tell where its parts stand.  Under any convention that has an opening
delimiter, whatever its delimiters are, the comments, the variables and the parts of the code each
come from left to right without overlapping, and none of them is empty or reaches beyond the line.
The parts of the code are cut out of the blanked line: a token is all ink, and an operand starts
and ends with ink, so neither can begin or end inside a comment.

A comment that cannot be closed runs to the end of the line, so under a convention of this sort no
part of the code comes behind a comment.
-/

namespace AsmColumns

open Comment (Convention scan)
open Text (isBlank isWord allBlank)

/-! ## Spans in order -/

theorem Span.contains_iff {span : Span} {offset : Nat} :
    span.contains offset = true ↔ span.start ≤ offset ∧ offset < span.stop := by
  simp [Span.contains]

/-- Nonempty spans from left to right between two offsets. -/
structure Span.InOrder (low high : Nat) (spans : List Span) : Prop where
  pos : ∀ span ∈ spans, 0 < span.length
  within : ∀ span ∈ spans, low ≤ span.start ∧ span.stop ≤ high
  ordered : spans.Pairwise fun a b => a.stop ≤ b.start

namespace Span.InOrder

variable {low mid high : Nat} {span : Span} {spans later : List Span}

theorem nil : InOrder low high [] :=
  ⟨by simp, by simp, .nil⟩

theorem append (h : InOrder low mid spans) (hlater : InOrder mid high later)
    (hlow : low ≤ mid) (hhigh : mid ≤ high) : InOrder low high (spans ++ later) := by
  refine ⟨fun span hspan => ?_, fun span hspan => ?_,
    List.pairwise_append.mpr ⟨h.ordered, hlater.ordered, fun a ha b hb => ?_⟩⟩
  · rcases List.mem_append.mp hspan with hspan | hspan
    · exact h.pos span hspan
    · exact hlater.pos span hspan
  · rcases List.mem_append.mp hspan with hspan | hspan
    · exact ⟨(h.within span hspan).1, (h.within span hspan).2.trans hhigh⟩
    · exact ⟨hlow.trans (hlater.within span hspan).1, (hlater.within span hspan).2⟩
  · exact (h.within a ha).2.trans (hlater.within b hb).1

theorem singleton (hpos : 0 < span.length) (hlow : low ≤ span.start) (hhigh : span.stop ≤ high) :
    InOrder low high [span] := by
  refine ⟨?_, ?_, List.pairwise_singleton ..⟩
  · simpa using hpos
  · simpa using And.intro hlow hhigh

theorem cons (hpos : 0 < span.length) (hlow : low ≤ span.start) (hhigh : span.stop ≤ high)
    (h : InOrder span.stop high spans) : InOrder low high (span :: spans) :=
  (singleton hpos hlow le_rfl).append h (hlow.trans (Nat.le_add_right ..)) hhigh

theorem mono {low' : Nat} (h : InOrder low high spans) (hlow : low' ≤ low) :
    InOrder low' high spans :=
  ⟨h.pos, fun span hspan => ⟨hlow.trans (h.within span hspan).1, (h.within span hspan).2⟩,
    h.ordered⟩

end Span.InOrder

/-! ## Comments and variables -/

namespace Comment

theorem Spells.inOrder {offset : Nat} {marks : List Bool} {spans : List Span}
    (h : Spells offset marks spans) : Span.InOrder offset (offset + marks.length) spans := by
  induction h with
  | nil => exact .nil
  | @bare offset marks spans _ ih =>
      rw [List.length_cons, Nat.add_comm marks.length, ← Nat.add_assoc]
      exact ih.mono (Nat.le_succ offset)
  | @region offset length marks spans hlength _ ih =>
      rw [List.length_append, List.length_replicate, ← Nat.add_assoc]
      exact .cons hlength le_rfl (Nat.le_add_right ..) ih

theorem stop_of_mem_scanFrom {conv : Convention} (hblock : conv.isBlock = false) (skip : Nat)
    (state : Quoting) (before : Option Char) (offset : Nat) (text : Text) :
    ∀ span ∈ (scanFrom conv skip state before offset text).spans,
      span.stop = offset + text.length := by
  fun_induction scanFrom conv skip state before offset text with
  | case1 => simp
  | case2 state before offset c rest skip ih => simpa [Nat.add_assoc, Nat.add_comm 1] using ih
  | case3 state before offset c rest next hnext ih =>
      simpa [Nat.add_assoc, Nat.add_comm 1] using ih
  | case4 => simp_all
  | case5 => simp_all
  | case6 => simp [Span.stop]
  | case7 state before offset c rest hnext hopens ih =>
      simpa [Nat.add_assoc, Nat.add_comm 1] using ih

/-- A comment that cannot be closed runs to the end of the line. -/
theorem stop_of_mem_scan {conv : Convention} (hblock : conv.isBlock = false) (continued : Bool)
    (text : Text) : ∀ span ∈ (scan conv continued text).spans, span.stop = text.length := by
  have hscan : scan conv continued text = scanFrom conv 0 {} none 0 text := by
    simp [scan, hblock]
  rw [hscan]
  simpa using stop_of_mem_scanFrom hblock 0 {} none 0 text

end Comment

namespace Line

/-- A word before the first variable moves the variables behind it. -/
theorem inOrder_variablesFrom (offset : Nat) (text : Text) :
    Span.InOrder (offset + (text.takeWhile isWord).length) (offset + text.length)
      (variablesFrom offset text) := by
  induction text generalizing offset with
  | nil => exact .nil
  | cons c rest ih =>
      have hrest := ih (offset + 1)
      rw [Nat.add_right_comm _ 1 rest.length] at hrest
      have hle := (List.takeWhile_prefix (l := rest) isWord).length_le
      by_cases hvar : (c == '%' && rest.head?.any isWord) = true
      · obtain rfl : c = '%' := by simpa using (Bool.and_eq_true_iff.mp hvar).1
        rw [variablesFrom, if_pos hvar, List.takeWhile_cons_of_neg (by decide)]
        refine .cons (Nat.succ_pos _) le_rfl ?_ ?_
        · simp only [Span.stop, List.length_cons]
          omega
        · refine hrest.mono ?_
          simp only [Span.stop]
          omega
      · rw [variablesFrom, if_neg hvar]
        refine hrest.mono ?_
        rw [List.takeWhile_cons]
        split
        · rw [List.length_cons]
          omega
        · exact Nat.le_add_right_of_le (Nat.le_add_right ..)

/-! ## The parts of the code, sorted -/

namespace Reading

/-- The span of a part, if the line has that part. -/
def part? (r : Reading) : Part → Option Span
  | .label => r.label
  | .condition => r.condition
  | .directive => r.directive
  | .operation => r.operation
  | .operand => r.operand

theorem mem_insertPart {a entry : Part × Span} {sorted : List (Part × Span)} :
    a ∈ insertPart entry sorted ↔ a = entry ∨ a ∈ sorted := by
  induction sorted with
  | nil => simp [insertPart]
  | cons other sorted ih =>
      unfold insertPart
      split
      · simp
      · simp [ih, or_left_comm]

theorem mem_foldl_insertPart {a : Part × Span} {parts sorted : List (Part × Span)} :
    a ∈ parts.foldl (fun sorted entry => insertPart entry sorted) sorted ↔
      a ∈ parts ∨ a ∈ sorted := by
  induction parts generalizing sorted with
  | nil => simp
  | cons entry parts ih => simp [ih, mem_insertPart, or_left_comm, or_assoc]

theorem mem_code {r : Reading} {part : Part} {span : Span} :
    (part, span) ∈ r.code ↔ r.part? part = some span := by
  rw [code, mem_foldl_insertPart]
  cases part <;> simp [part?]

/-- Parts that come in the order of their starts are sorted already. -/
theorem foldl_insertPart {parts sorted : List (Part × Span)}
    (hparts : parts.Pairwise fun a b => a.2.start ≤ b.2.start)
    (hsorted : ∀ a ∈ sorted, ∀ b ∈ parts, a.2.start ≤ b.2.start) :
    parts.foldl (fun sorted entry => insertPart entry sorted) sorted = sorted ++ parts := by
  have hinsert : ∀ (entry : Part × Span) (sorted : List (Part × Span)),
      (∀ a ∈ sorted, a.2.start ≤ entry.2.start) →
      insertPart entry sorted = sorted ++ [entry] := by
    intro entry sorted hle
    induction sorted with
    | nil => rfl
    | cons other sorted ih =>
        have hother := hle other List.mem_cons_self
        rw [insertPart, if_neg (by omega), ih fun a ha => hle a (List.mem_cons_of_mem _ ha)]
        rfl
  induction parts generalizing sorted with
  | nil => simp
  | cons entry parts ih =>
      rw [List.pairwise_cons] at hparts
      rw [List.foldl_cons, hinsert entry sorted fun a ha => hsorted a ha entry List.mem_cons_self,
        ih hparts.2, List.append_assoc, List.singleton_append]
      intro a ha b hb
      rw [List.mem_append, List.mem_singleton] at ha
      rcases ha with ha | rfl
      · exact hsorted a ha b (List.mem_cons_of_mem _ hb)
      · exact hparts.1 b hb

theorem Bare.code_eq {r : Reading} (h : r.Bare) : r.code = [] := by
  simp [code, h.label, h.directive, h.operation, h.operand, h.condition]

end Reading

/-- What stands at the margin, as a part. -/
def Front.marginParts (f : Front) (kind : Kind) : List (Part × Span) :=
  if kind = .label then [(.label, ⟨0, f.margin.length⟩)]
  else if kind = .operation ∧ f.margin ≠ [] then
    [(.condition, ⟨1, (f.margin.tail.takeWhile isWord).length⟩)]
  else []

/-- The head and its operand, as parts. -/
def Front.headParts (f : Front) (operand : Option Span) : List (Part × Span) :=
  (if f.head = [] then []
    else [(if f.head.head? = some '.' then .directive else .operation, f.headSpan)]) ++
  operand.toList.map (.operand, ·)

/-- The parts of a line with this front, from left to right. -/
def Front.parts (f : Front) (kind : Kind) (rest : Text) : List (Part × Span) :=
  f.marginParts kind ++ f.headParts (f.operand? rest)

theorem operand?_eq (f : Front) (rest : Text) :
    f.operand? rest =
      if f.head = [] ∨ allBlank rest then none
      else some ⟨f.text.length + (rest.takeWhile isBlank).length, (Text.trim rest).length⟩ := by
  rw [Front.operand?, operandAfter?_append]
  by_cases hhead : f.head = [] <;> by_cases hrest : allBlank rest <;> simp [hhead, hrest]

section fits

variable {kind : Kind} {f : Front} {rest : Text}

theorem EndsLabel.ink {label : Text} (h : EndsLabel label rest) :
    label ≠ [] ∧ ∀ c ∈ label, isBlank c = false := by
  obtain ⟨run, hne, hrun, rfl | ⟨rfl, _⟩⟩ := h
  · refine ⟨by simp, fun c hc => ?_⟩
    rcases List.mem_append.mp hc with hc | hc
    · exact isBlank_of_isLabelChar (hrun c hc)
    · rw [List.mem_singleton.mp hc]
      decide
  · exact ⟨hne, fun c hc => isBlank_of_isLabelChar (hrun c hc)⟩

theorem IsHead.ink {word : Text} (h : IsHead word rest) : ∀ c ∈ word, isBlank c = false :=
  fun c hc => Text.isBlank_of_isWord (h.all_isWord c hc)

theorem Fits.margin_cases (h : Fits kind f rest) :
    (kind = .label ∧ f.lead = [] ∧ f.margin ≠ [] ∧ ∀ c ∈ f.margin, isBlank c = false) ∨
      (kind = .operation ∧ f.lead = [] ∧ IsCondition f.margin) ∨
      (kind ≠ .label ∧ f.margin = []) := by
  cases h with
  | directive => exact .inr (.inr ⟨by decide, rfl⟩)
  | label hlabel => exact .inl ⟨rfl, rfl, hlabel.ends.ink⟩
  | labelled hlabel => exact .inl ⟨rfl, rfl, hlabel.ends.ink⟩
  | operation => exact .inr (.inr ⟨by decide, rfl⟩)
  | conditional hcondition => exact .inr (.inl ⟨rfl, rfl, hcondition⟩)

theorem Fits.head_ink (h : Fits kind f rest) : ∀ c ∈ f.head, isBlank c = false := by
  cases h with
  | directive _ hword => exact List.forall_mem_cons.mpr ⟨by decide, hword.ink⟩
  | label => simp
  | labelled _ _ _ hhead => exact hhead
  | operation _ _ hword => exact hword.ink
  | conditional _ _ _ hword => exact hword.ink

theorem IsCondition.takeWhile_tail {condition : Text} (h : IsCondition condition) :
    ∃ word close, word ≠ [] ∧ (∀ c ∈ word, isWord c = true) ∧ (close = [] ∨ close = [')']) ∧
      condition = '(' :: (word ++ close) ∧ condition.tail.takeWhile isWord = word := by
  obtain ⟨word, close, hne, hword, hclose, rfl⟩ := h
  refine ⟨word, close, hne, hword, hclose, rfl, Text.takeWhile_append_of_stops hword ?_⟩
  rcases hclose with rfl | rfl
  · exact Text.stops_nil _
  · exact Text.stops_cons.mpr (by decide)

theorem inOrder_marginParts (h : Fits kind f rest) :
    Span.InOrder 0 f.headSpan.start ((f.marginParts kind).map (·.2)) := by
  have hstart : f.headSpan.start = f.lead.length + f.margin.length + f.gap.length := rfl
  rcases h.margin_cases with ⟨rfl, _, hne, _⟩ | ⟨rfl, _, hcondition⟩ | ⟨hlabel, hmargin⟩
  · refine .singleton (List.length_pos_iff.mpr hne) le_rfl ?_
    simp only [Span.stop]
    omega
  · obtain ⟨word, close, hne, _, _, hmargin, hword⟩ := hcondition.takeWhile_tail
    have hlength := congrArg List.length hmargin
    rw [List.length_cons, List.length_append] at hlength
    have hparts : f.marginParts .operation = [(.condition, ⟨1, word.length⟩)] := by
      rw [Front.marginParts, if_neg (by decide), if_pos ⟨rfl, by simp [hmargin]⟩, hword]
    rw [hparts]
    refine .singleton (List.length_pos_iff.mpr hne) (Nat.zero_le _) ?_
    simp only [Span.stop]
    omega
  · have hparts : f.marginParts kind = [] := by simp [Front.marginParts, hlabel, hmargin]
    rw [hparts]
    exact .nil

theorem inOrder_headParts (f : Front) (rest : Text) :
    Span.InOrder f.headSpan.start (f.text ++ rest).length
      ((f.headParts (f.operand? rest)).map (·.2)) := by
  have hstop := f.stop_headSpan
  have hfront : f.headSpan.start ≤ f.text.length := by
    rw [← hstop]
    exact Nat.le_add_right ..
  rw [Front.headParts, operand?_eq, List.length_append]
  by_cases hhead : f.head = []
  · simp only [hhead, true_or, if_true]
    exact .nil
  · have hpos : 0 < f.headSpan.length := List.length_pos_iff.mpr hhead
    simp only [hhead, false_or, if_false]
    refine .cons hpos le_rfl (hstop.trans_le (Nat.le_add_right ..)) ?_
    by_cases hrest : allBlank rest
    · simp only [hrest, if_true]
      exact .nil
    · rw [hstop]
      simp only [hrest]
      have htrim : Text.trim rest ≠ [] := fun hnil => hrest (Text.trim_eq_nil_iff.mp hnil)
      have hlength := congrArg List.length (Text.lead_trim_tail rest)
      simp only [List.length_append] at hlength
      refine .singleton (List.length_pos_iff.mpr htrim) (Nat.le_add_right ..) ?_
      simp only [Span.stop]
      omega

theorem inOrder_parts (h : Fits kind f rest) :
    Span.InOrder 0 (f.text ++ rest).length ((f.parts kind rest).map (·.2)) := by
  rw [Front.parts, List.map_append]
  refine (inOrder_marginParts h).append (inOrder_headParts f rest) (Nat.zero_le _) ?_
  rw [List.length_append, ← f.stop_headSpan, Span.stop, Nat.add_assoc]
  exact Nat.le_add_right ..

theorem code_reading (base : Reading) (h : Fits kind f rest) :
    (f.reading kind base (f.operand? rest)).code = f.parts kind rest := by
  have hpresent : ∀ operand, [(Part.label, (f.reading kind base operand).label),
      (.condition, (f.reading kind base operand).condition),
      (.directive, (f.reading kind base operand).directive),
      (.operation, (f.reading kind base operand).operation),
      (.operand, (f.reading kind base operand).operand)].filterMap
        (fun entry => entry.2.map (entry.1, ·)) = f.marginParts kind ++ f.headParts operand := by
    intro operand
    simp only [Front.reading, Front.marginParts, Front.headParts]
    by_cases hlabel : kind = .label <;> by_cases hcondition : kind = .operation ∧ f.margin ≠ [] <;>
      by_cases hhead : f.head = [] <;> by_cases hdot : f.head.head? = some '.' <;>
      cases operand <;> simp_all
  have hsorted : (f.parts kind rest).Pairwise fun a b => a.2.start ≤ b.2.start := by
    refine (List.pairwise_map.mp (inOrder_parts h).ordered).imp fun hstop => ?_
    exact (Nat.le_add_right ..).trans hstop
  have hfold := @Reading.foldl_insertPart (f.parts kind rest) [] hsorted (by simp)
  rw [List.nil_append] at hfold
  rw [Reading.code]
  simp only [hpresent]
  exact hfold

end fits

/-! ## Well-formed readings -/

/-- Where a part stands among the parts of its line. -/
def Part.rank : Part → Nat
  | .label | .condition => 0
  | .directive | .operation => 1
  | .operand => 2

/-- The offset of a character that is neither blank nor comment. -/
def Reading.Exposes (r : Reading) (offset : Nat) : Prop :=
  Span.covers r.comments offset = false ∧ ∃ c, r.text[offset]? = some c ∧ isBlank c = false

/-- Comments, variables and parts come in order, the parts of the code by their ranks; tokens are
ink and operands lie between ink, outside all comments. -/
structure Reading.WellFormed (conv : Convention) (r : Reading) : Prop where
  comments : Span.InOrder 0 r.text.length r.comments
  vars : Span.InOrder 0 r.text.length r.vars
  code : Span.InOrder 0 r.text.length (r.code.map (·.2))
  ranks : r.code.Pairwise fun a b => a.1.rank < b.1.rank
  tokens : ∀ part span, r.part? part = some span → part ≠ .operand →
    ∀ offset, span.contains offset = true → r.Exposes offset
  operand : ∀ span, r.operand = some span → r.Exposes span.start ∧ r.Exposes (span.stop - 1)
  before_comment : conv.isBlock = false →
    ∀ part ∈ r.code, ∀ comment ∈ r.comments, part.2.stop ≤ comment.start

theorem exposes_of_code {r : Reading} {offset : Nat} {c : Char}
    (hcode : (codeOf r.comments r.text)[offset]? = some c) (hc : isBlank c = false) :
    r.Exposes offset := by
  rw [codeOf, Text.blankOut, List.getElem?_mapIdx, Option.map_eq_some_iff] at hcode
  obtain ⟨d, hd, hcover⟩ := hcode
  cases hcovers : Span.covers r.comments offset with
  | true =>
      rw [hcovers, if_pos rfl] at hcover
      rw [← hcover] at hc
      exact absurd hc (by decide)
  | false =>
      rw [hcovers, if_neg Bool.false_ne_true] at hcover
      exact ⟨hcovers, d, hd, hcover ▸ hc⟩

theorem exposes_of_ink {r : Reading} {front word rest : Text} {offset : Nat}
    (hcode : codeOf r.comments r.text = front ++ (word ++ rest))
    (hword : ∀ c ∈ word, isBlank c = false)
    (hoffset : Span.contains ⟨front.length, word.length⟩ offset = true) : r.Exposes offset := by
  have hoffset : front.length ≤ offset ∧ offset < front.length + word.length :=
    Span.contains_iff.mp hoffset
  have hlt : offset - front.length < word.length := by omega
  refine exposes_of_code (c := word.get ⟨offset - front.length, hlt⟩) ?_
    (hword _ (List.get_mem ..))
  rw [hcode, List.getElem?_append_right hoffset.1, List.getElem?_append_left hlt]
  exact List.getElem?_eq_getElem hlt

section wellFormed

variable {conv : Convention} {kind : Kind} {f : Front} {rest : Text} {base : Reading}

theorem ranks_parts (f : Front) (kind : Kind) (rest : Text) :
    (f.parts kind rest).Pairwise fun a b => a.1.rank < b.1.rank := by
  have hmargin : (f.marginParts kind).Pairwise (fun a b => a.1.rank < b.1.rank) ∧
      ∀ a ∈ f.marginParts kind, a.1.rank = 0 := by
    unfold Front.marginParts
    split
    · simp [Part.rank]
    · split <;> simp [Part.rank]
  have hhead : (f.headParts (f.operand? rest)).Pairwise (fun a b => a.1.rank < b.1.rank) ∧
      ∀ b ∈ f.headParts (f.operand? rest), 0 < b.1.rank := by
    unfold Front.headParts
    by_cases hdot : f.head.head? = some '.' <;> cases f.operand? rest <;> split <;>
      simp_all [Part.rank]
  refine List.pairwise_append.mpr ⟨hmargin.1, hhead.1, fun a ha b hb => ?_⟩
  rw [hmargin.2 a ha]
  exact hhead.2 b hb

/-- An operand starts and ends with ink. -/
theorem exposes_operand {r : Reading} {span : Span}
    (hcode : codeOf r.comments r.text = f.text ++ rest) (hspan : f.operand? rest = some span) :
    r.Exposes span.start ∧ r.Exposes (span.stop - 1) := by
  rw [operand?_eq, Option.ite_none_left_eq_some, not_or, Bool.not_eq_true] at hspan
  obtain ⟨⟨_, hrest⟩, hspan⟩ := hspan
  obtain rfl := Option.some.inj hspan
  have hone : ∀ {front back : Text} {c : Char}, codeOf r.comments r.text = front ++ ([c] ++ back) →
      isBlank c = false → r.Exposes front.length := by
    intro front back c hcode hc
    exact exposes_of_ink hcode (by simpa using hc)
      (Span.contains_iff.mpr ⟨le_rfl, by simp [Span.stop]⟩)
  have hcode' := hcode
  rw [← Text.lead_trim_tail rest] at hcode'
  constructor
  · obtain ⟨c, more, htrim, hc⟩ := Text.exists_trim_eq_cons hrest
    rw [htrim] at hcode'
    have hstart := @hone (f.text ++ rest.takeWhile isBlank) _ c (by simpa using hcode') hc
    simpa using hstart
  · obtain ⟨more, c, htrim, hc⟩ := Text.exists_trim_eq_concat hrest
    rw [htrim] at hcode' ⊢
    have hstop := @hone (f.text ++ rest.takeWhile isBlank ++ more) _ c (by simpa using hcode') hc
    have hlength : f.text.length + (rest.takeWhile isBlank).length + (more ++ [c]).length - 1 =
        (f.text ++ rest.takeWhile isBlank ++ more).length := by
      simp only [List.length_append, List.length_singleton]
      omega
    simp only [Span.stop]
    rwa [hlength]

/-- The tokens of a line are all ink. -/
theorem exposes_token {r : Reading} {part : Part} {span : Span} {offset : Nat}
    (h : Fits kind f rest) (hcode : codeOf r.comments r.text = f.text ++ rest)
    (hspan : (part, span) ∈ f.marginParts kind ++ f.headParts none)
    (hoffset : span.contains offset = true) : r.Exposes offset := by
  rcases List.mem_append.mp hspan with hspan | hspan
  · rcases h.margin_cases with ⟨rfl, hlead, _, hink⟩ | ⟨rfl, hlead, hcondition⟩ | ⟨hlabel, hmargin⟩
    · obtain ⟨_, rfl⟩ : part = .label ∧ span = ⟨0, f.margin.length⟩ := by
        simpa [Front.marginParts] using hspan
      have hcode' : codeOf r.comments r.text = [] ++ (f.margin ++ (f.gap ++ f.head ++ rest)) := by
        simp [hcode, Front.text, hlead]
      exact exposes_of_ink hcode' hink hoffset
    · obtain ⟨word, close, _, hword, _, hmargin, hrun⟩ := hcondition.takeWhile_tail
      have hcode' : codeOf r.comments r.text =
          ['('] ++ (word ++ (close ++ (f.gap ++ f.head ++ rest))) := by
        simp [hcode, Front.text, hlead, hmargin]
      rw [Front.marginParts, if_neg (by decide), if_pos ⟨rfl, by simp [hmargin]⟩, hrun] at hspan
      obtain ⟨_, rfl⟩ := Prod.mk.inj (List.mem_singleton.mp hspan)
      exact exposes_of_ink hcode' (fun c hc => Text.isBlank_of_isWord (hword c hc)) hoffset
    · simp [Front.marginParts, hlabel, hmargin] at hspan
  · have hcode' : codeOf r.comments r.text =
        (f.lead ++ (f.margin ++ f.gap)) ++ (f.head ++ rest) := by
      simp [hcode, Front.text]
    obtain rfl : span = f.headSpan := by
      simp only [Front.headParts] at hspan
      split at hspan
      · cases hspan
      · simpa using (Prod.mk.inj (List.mem_singleton.mp hspan)).2
    refine exposes_of_ink hcode' h.head_ink ?_
    simpa [Front.headSpan, Nat.add_assoc] using hoffset

theorem wellFormed_of_bare {r : Reading} (h : r.Bare)
    (hcomments : Span.InOrder 0 r.text.length r.comments)
    (hvars : Span.InOrder 0 r.text.length r.vars) : r.WellFormed conv := by
  refine ⟨hcomments, hvars, ?_, ?_, fun part span hspan => ?_, ?_, ?_⟩
  · rw [h.code_eq]
    exact .nil
  · simp [h.code_eq]
  · simp [← Reading.mem_code, h.code_eq] at hspan
  · simp [h.operand]
  · simp [h.code_eq]

theorem wellFormed_of_fits {r : Reading} (h : Fits kind f rest)
    (hr : r = f.reading kind base (f.operand? rest))
    (hcode : codeOf r.comments r.text = f.text ++ rest)
    (hcomments : Span.InOrder 0 r.text.length r.comments)
    (hvars : Span.InOrder 0 r.text.length r.vars)
    (hends : conv.isBlock = false → ∀ comment ∈ r.comments, comment.stop = r.text.length) :
    r.WellFormed conv := by
  have hparts : r.code = f.parts kind rest := by rw [hr, code_reading base h]
  have hlength : r.text.length = (f.text ++ rest).length := by
    rw [← hcode, codeOf, Text.blankOut, List.length_mapIdx]
  have hinOrder : Span.InOrder 0 r.text.length (r.code.map (·.2)) := by
    rw [hparts, hlength]
    exact inOrder_parts h
  have htokens : ∀ part span, r.part? part = some span → part ≠ .operand →
      ∀ offset, span.contains offset = true → r.Exposes offset := by
    intro part span hspan hpart offset hoffset
    rw [← Reading.mem_code, hparts] at hspan
    have htoken : (part, span) ∈ f.marginParts kind ++ f.headParts none := by
      simpa [Front.parts, Front.headParts, Ne.symm hpart] using hspan
    exact exposes_token h hcode htoken hoffset
  have hoperand : ∀ span, r.operand = some span →
      r.Exposes span.start ∧ r.Exposes (span.stop - 1) := by
    intro span hspan
    rw [hr] at hspan
    exact exposes_operand hcode hspan
  refine ⟨hcomments, hvars, hinOrder, hparts ▸ ranks_parts f kind rest, htokens, hoperand, ?_⟩
  rintro hblock ⟨part, span⟩ hpart comment hcomment
  have hpos : 0 < span.length := hinOrder.pos span (List.mem_map_of_mem hpart)
  have hwithin : span.stop ≤ r.text.length :=
    (hinOrder.within span (List.mem_map_of_mem hpart)).2
  have hlast : r.Exposes (span.stop - 1) := by
    rw [Reading.mem_code] at hpart
    by_cases hoperandPart : part = .operand
    · subst hoperandPart
      exact (hoperand span hpart).2
    · refine htokens part span hpart hoperandPart _ (Span.contains_iff.mpr ?_)
      simp only [Span.stop]
      omega
  -- The comment covers everything up to the end of the line, the last character of the part too.
  by_contra hbehind
  have hcovered : comment.contains (span.stop - 1) = true := by
    rw [Span.contains_iff, hends hblock comment hcomment]
    simp only [Span.stop] at hbehind hwithin ⊢
    omega
  have hfree := hlast.1
  rw [Span.covers, List.any_eq_false] at hfree
  exact hfree comment hcomment hcovered

end wellFormed

/-- Under a convention with an opening delimiter every line can be read, and its reading is
well-formed. -/
theorem wellFormed_read (style : Comment.Style) (opening closing : Text)
    (repeatable continued : Bool) (text : Text) :
    let conv : Convention := ⟨style, some opening, closing, repeatable⟩
    let r := read conv continued (some text)
    r.degraded = false ∧ r.text = text ∧ r.WellFormed conv := by
  intro conv r
  have hr : r = readText conv continued text := read_of_opening rfl continued text
  rw [hr]
  refine ⟨degraded_readText .., text_readText .., ?_⟩
  obtain ⟨marks, h, hcases⟩ := readText_cases conv continued text
  have hlength := h.scans.length_marks
  have hcomments : Span.InOrder 0 text.length (scan conv continued text).spans := by
    simpa [hlength] using h.spells.inOrder
  have hvars : Span.InOrder 0 text.length (variablesFrom 0 text) := by
    simpa using (inOrder_variablesFrom 0 text).mono (Nat.zero_le _)
  have hends : conv.isBlock = false →
      ∀ comment ∈ (scan conv continued text).spans, comment.stop = text.length :=
    fun hblock => Comment.stop_of_mem_scan hblock continued text
  rcases hcases with hblank | ⟨hink, hshapeless⟩ | ⟨kind, f, rest, hcode, hfits⟩
  · exact wellFormed_of_bare (readText_of_allBlank h hblank).1 (by simpa) (by simpa)
  · refine wellFormed_of_bare ?_ (by simpa) (by simpa)
    rw [readText_of_shapeless h hink hshapeless]
    exact ⟨rfl, rfl, rfl, rfl, rfl⟩
  · refine wellFormed_of_fits hfits (readText_of_fits h hcode hfits) ?_ (by simpa) (by simpa)
      (by simpa)
    rw [comments_readText, text_readText, h.codeOf_eq, hcode]

end Line
end AsmColumns
