import AsmColumns.Line.Read
import AsmColumns.Proofs.Text.Classes

/-!
# The shapes of a line, piece by piece

The front of a line of code is what comes before its operand: blanks, the label or the condition at
the margin, a gap, and the directive or operation.  A front fits a kind of line if it is spelled as
that kind asks and the rest of the code does not go on with it.  A line has a kind exactly if it
starts with a front that fits, and the spans of its reading are the lengths of the pieces.

Because the pieces are texts and not offsets, a line whose blanks have changed is read again by
giving the new pieces.
-/

namespace AsmColumns
namespace Line

open Text (isBlank isPad isWord allBlank Stops)

structure Front where
  lead : Text := []
  margin : Text := []
  gap : Text := []
  head : Text := []
deriving DecidableEq

namespace Front

def text (f : Front) : Text :=
  f.lead ++ (f.margin ++ (f.gap ++ f.head))

/-- The span of the directive or operation. -/
def headSpan (f : Front) : Span :=
  ⟨f.lead.length + f.margin.length + f.gap.length, f.head.length⟩

theorem stop_headSpan (f : Front) : f.headSpan.stop = f.text.length := by
  simp [headSpan, Span.stop, text, Nat.add_assoc]

/-- The part of the code behind the front that becomes its operand. -/
def operand? (f : Front) (rest : Text) : Option Span :=
  if f.head.isEmpty then none else operandAfter? (f.text ++ rest) f.text.length

/-- The reading of a line of the given kind with this front. -/
def reading (f : Front) (kind : Kind) (base : Reading) (operand : Option Span) : Reading :=
  { base with
    kind
    label := if kind = .label then some ⟨0, f.margin.length⟩ else none
    directive := if f.head.head? = some '.' then some f.headSpan else none
    operation := if f.head.isEmpty || f.head.head? = some '.' then none else some f.headSpan
    operand
    condition :=
      if kind = .operation ∧ f.margin ≠ [] then
        some ⟨1, (f.margin.tail.takeWhile isWord).length⟩
      else none }

end Front

/-- A run of label characters with its colon, or without one before a blank or the end. -/
def EndsLabel (label rest : Text) : Prop :=
  ∃ run, run ≠ [] ∧ (∀ c ∈ run, isLabelChar c = true) ∧
    (label = run ++ [':'] ∨ (label = run ∧ rest.head?.all isBlank = true))

/-- A label that the rest of the code does not go on with. -/
structure IsLabel (label rest : Text) : Prop where
  ends : EndsLabel label rest
  not_directive : directive? label = none

/-- A condition, with or without its second parenthesis. -/
def IsCondition (condition : Text) : Prop :=
  ∃ word close, word ≠ [] ∧ (∀ c ∈ word, isWord c = true) ∧ (close = [] ∨ close = [')']) ∧
    condition = '(' :: (word ++ close)

/-- A nonempty word that the rest of the code does not go on with. -/
structure IsHead (word rest : Text) : Prop where
  ne_nil : word ≠ []
  all_isWord : ∀ c ∈ word, isWord c = true
  stops : Stops isWord rest

/-- The front of a line of the given kind, before the rest of its code. -/
inductive Fits : Kind → Front → Text → Prop where
  | directive {lead word rest : Text} :
      allBlank lead → IsHead word rest → rest.head? ≠ some ':' →
      Fits .directive ⟨lead, [], [], '.' :: word⟩ rest
  | label {label rest : Text} :
      IsLabel label rest → (rest.dropWhile isPad).head?.all isBlank = true →
      Fits .label ⟨[], label, [], []⟩ rest
  | labelled {label gap head rest : Text} :
      IsLabel label (gap ++ (head ++ rest)) → (∀ c ∈ gap, isPad c = true) →
      head ≠ [] → (∀ c ∈ head, isBlank c = false) → rest.head?.all isBlank = true →
      Fits .label ⟨[], label, gap, head⟩ rest
  | operation {lead word rest : Text} :
      lead ≠ [] → allBlank lead → IsHead word rest →
      Fits .operation ⟨lead, [], [], word⟩ rest
  | conditional {condition gap word rest : Text} :
      IsCondition condition → gap ≠ [] → allBlank gap → IsHead word rest →
      Fits .operation ⟨[], condition, gap, word⟩ rest

/-! ## Directives -/

theorem directive?_of_ne_dot {lead rest : Text} {c : Char}
    (hlead : allBlank lead) (hc : isBlank c = false) (hdot : c ≠ '.') :
    directive? (lead ++ c :: rest) = none := by
  unfold directive?
  rw [Text.dropWhile_append_of_stops (Text.allBlank_iff.mp hlead) (Text.stops_cons.mpr hc)]
  split
  · rename_i heq
    exact absurd (List.cons.inj heq).1 hdot
  · rfl

theorem directive?_dot {lead word rest : Text}
    (hlead : allBlank lead) (hword : ∀ c ∈ word, isWord c = true) (hrest : Stops isWord rest) :
    directive? (lead ++ '.' :: (word ++ rest)) =
      if word = [] ∨ rest.head? = some ':' then none else some ⟨lead.length, word.length + 1⟩ := by
  have hblank := Text.allBlank_iff.mp hlead
  have hstops : Stops isBlank ('.' :: (word ++ rest)) := Text.stops_cons.mpr (by decide)
  unfold directive?
  rw [Text.dropWhile_append_of_stops hblank hstops, Text.takeWhile_append_of_stops hblank hstops]
  simp only [Text.takeWhile_append_of_stops hword hrest,
    Text.dropWhile_append_of_stops hword hrest]
  simp

theorem isHead_takeWhile {rest : Text} (h : rest.takeWhile isWord ≠ []) :
    IsHead (rest.takeWhile isWord) (rest.dropWhile isWord) :=
  ⟨h, fun _ hc => List.mem_takeWhile_imp hc, Text.stops_dropWhile isWord rest⟩

theorem exists_of_directive? {code : Text} {span : Span} (h : directive? code = some span) :
    ∃ lead word rest, code = lead ++ '.' :: (word ++ rest) ∧ allBlank lead ∧
      IsHead word rest ∧ rest.head? ≠ some ':' := by
  unfold directive? at h
  split at h
  · rename_i rest hrest
    simp only [Bool.or_eq_true, List.isEmpty_iff, beq_iff_eq] at h
    split at h
    · cases h
    · rename_i hnot
      rw [not_or] at hnot
      refine ⟨code.takeWhile isBlank, rest.takeWhile isWord, rest.dropWhile isWord, ?_,
        Text.allBlank_takeWhile code, isHead_takeWhile hnot.1, hnot.2⟩
      rw [List.takeWhile_append_dropWhile, ← hrest, List.takeWhile_append_dropWhile]
  · cases h

/-! ## Labels -/

section labels

variable {label rest gap head code : Text}

theorem stops_isWord_of_blank (h : rest.head?.all isBlank = true) : Stops isWord rest := by
  intro c hc
  rw [Option.mem_def.mp hc] at h
  exact Text.isWord_of_isBlank h

theorem stops_isLabelChar_of_blank (h : rest.head?.all isBlank = true) :
    Stops isLabelChar rest := by
  intro c hc
  rw [Option.mem_def.mp hc] at h
  rw [Bool.eq_false_iff]
  intro hlabel
  rw [Option.all_some, isBlank_of_isLabelChar hlabel] at h
  cases h

theorem head?_ne_colon_of_blank (h : rest.head?.all isBlank = true) : rest.head? ≠ some ':' := by
  intro hcolon
  rw [hcolon] at h
  revert h
  decide

theorem labelLength?_of_ends (h : EndsLabel label rest) :
    labelLength? (label ++ rest) = some label.length := by
  obtain ⟨run, hne, hrun, hlabel⟩ := h
  unfold labelLength?
  rcases hlabel with rfl | ⟨rfl, hrest⟩
  · have hstops : Stops isLabelChar (':' :: rest) := Text.stops_cons.mpr (by decide)
    rw [List.append_assoc, List.singleton_append, Text.takeWhile_append_of_stops hrun hstops,
      Text.dropWhile_append_of_stops hrun hstops]
    simp [hne]
  · have hstops := stops_isLabelChar_of_blank hrest
    rw [Text.takeWhile_append_of_stops hrun hstops, Text.dropWhile_append_of_stops hrun hstops]
    cases rest with
    | nil => simp [hne]
    | cons c rest =>
        have hcolon : c ≠ ':' := by simpa using head?_ne_colon_of_blank hrest
        have hblank : isBlank c = true := hrest
        simp [hne, hcolon, hblank]

theorem exists_of_labelLength? {n : Nat} (h : labelLength? code = some n) :
    ∃ label rest, code = label ++ rest ∧ EndsLabel label rest := by
  have hrun : ∀ c ∈ code.takeWhile isLabelChar, isLabelChar c = true :=
    fun _ hc => List.mem_takeWhile_imp hc
  have hcode := List.takeWhile_append_dropWhile (p := isLabelChar) (l := code)
  unfold labelLength? at h
  by_cases hne : code.takeWhile isLabelChar = []
  · simp [hne] at h
  · cases hdrop : code.dropWhile isLabelChar with
    | nil =>
        rw [hdrop] at hcode
        exact ⟨_, [], hcode.symm, _, hne, hrun, .inr ⟨rfl, rfl⟩⟩
    | cons c rest =>
        rw [hdrop] at hcode h
        by_cases hcolon : c = ':'
        · subst hcolon
          refine ⟨code.takeWhile isLabelChar ++ [':'], rest, ?_, _, hne, hrun, .inl rfl⟩
          rw [List.append_assoc, List.singleton_append, hcode]
        · by_cases hblank : isBlank c = true
          · exact ⟨_, c :: rest, hcode.symm, _, hne, hrun, .inr ⟨rfl, hblank⟩⟩
          · simp [hcolon, hblank] at h

/-- Whether a label is a directive is decided by the label alone. -/
theorem directive?_label_append (h : EndsLabel label rest) :
    directive? (label ++ rest) = none ↔ directive? label = none := by
  obtain ⟨run, hne, hrun, hlabel⟩ := h
  obtain ⟨c, run, rfl⟩ := List.exists_cons_of_ne_nil hne
  -- Behind the first character the label is a word, and then something that stops it: a label
  -- character, the colon, or a blank of the rest.
  obtain ⟨more, rfl, hmore⟩ : ∃ more, label = c :: more ∧
      (more.dropWhile isWord ≠ [] ∨ rest.head?.all isBlank = true) := by
    rcases hlabel with rfl | ⟨rfl, hrest⟩
    · refine ⟨run ++ [':'], rfl, .inl ?_⟩
      rw [Ne, List.dropWhile_eq_nil_iff]
      intro hall
      have := hall ':' (by simp)
      revert this
      decide
    · exact ⟨run, rfl, .inr hrest⟩
  have hblank : isBlank c = false := isBlank_of_isLabelChar (hrun c List.mem_cons_self)
  by_cases hdot : c = '.'
  · subst hdot
    have hword : ∀ c ∈ more.takeWhile isWord, isWord c = true :=
      fun _ hc => List.mem_takeWhile_imp hc
    have hstops := Text.stops_dropWhile isWord more
    rw [← List.takeWhile_append_dropWhile (p := isWord) (l := more)]
    generalize more.takeWhile isWord = word at *
    generalize more.dropWhile isWord = tail at *
    have hrest : Stops isWord (tail ++ rest) ∧
        ((tail ++ rest).head? = some ':' ↔ tail.head? = some ':') := by
      cases tail with
      | nil =>
          have hrest := hmore.resolve_left (fun h => h rfl)
          exact ⟨stops_isWord_of_blank hrest,
            iff_of_false (head?_ne_colon_of_blank hrest) (by simp)⟩
      | cons d tail => exact ⟨hstops, .rfl⟩
    have hlabel : directive? ([] ++ '.' :: (word ++ tail)) = _ := directive?_dot rfl hword hstops
    have hcode : directive? ([] ++ '.' :: (word ++ (tail ++ rest))) = _ :=
      directive?_dot rfl hword hrest.1
    rw [List.nil_append] at hlabel hcode
    rw [List.cons_append, List.append_assoc, hlabel, hcode]
    simp only [hrest.2]
  · have hlabel : directive? ([] ++ c :: more) = none := directive?_of_ne_dot rfl hblank hdot
    have hcode : directive? ([] ++ c :: (more ++ rest)) = none :=
      directive?_of_ne_dot rfl hblank hdot
    exact iff_of_true hcode hlabel

theorem stops_ink_of_blank (h : rest.head?.all isBlank = true) : Stops (!isBlank ·) rest := by
  intro c hc
  rw [Option.mem_def.mp hc, Option.all_some] at h
  simp [h]

theorem stops_isPad_of_ink (hne : head ≠ []) (hhead : ∀ c ∈ head, isBlank c = false) :
    Stops isPad (head ++ rest) := by
  obtain ⟨c, head, rfl⟩ := List.exists_cons_of_ne_nil hne
  refine Text.stops_cons.mpr (Bool.eq_false_iff.mpr fun hpad => ?_)
  have := hhead c List.mem_cons_self
  rw [Text.isBlank_of_isPad hpad] at this
  cases this

theorem tokenAfter?_append (front rest : Text) :
    tokenAfter? (front ++ rest) front.length =
      let token := (rest.dropWhile isPad).takeWhile (!isBlank ·)
      if token.isEmpty then none
      else some ⟨front.length + (rest.takeWhile isPad).length, token.length⟩ := by
  rw [tokenAfter?, List.drop_left]

theorem tokenAfter?_eq_none_iff {front : Text} :
    tokenAfter? (front ++ rest) front.length = none ↔
      (rest.dropWhile isPad).head?.all isBlank = true := by
  rw [tokenAfter?_append]
  cases hrest : rest.dropWhile isPad with
  | nil => simp
  | cons c more => cases hblank : isBlank c <;> simp [hblank]

theorem tokenAfter?_of_ink {front : Text}
    (hgap : ∀ c ∈ gap, isPad c = true)
    (hne : head ≠ [])
    (hhead : ∀ c ∈ head, isBlank c = false)
    (hrest : rest.head?.all isBlank = true) :
    tokenAfter? (front ++ (gap ++ (head ++ rest))) front.length =
      some ⟨front.length + gap.length, head.length⟩ := by
  have hstops : Stops (!isBlank ·) rest := stops_ink_of_blank hrest
  have hpad : Stops isPad (head ++ rest) := stops_isPad_of_ink hne hhead
  rw [tokenAfter?_append, Text.takeWhile_append_of_stops hgap hpad,
    Text.dropWhile_append_of_stops hgap hpad,
    Text.takeWhile_append_of_stops (by simpa using hhead) hstops]
  simp [hne]

theorem exists_of_tokenAfter? {front : Text} {span : Span}
    (h : tokenAfter? (front ++ rest) front.length = some span) :
    ∃ gap head more, rest = gap ++ (head ++ more) ∧ (∀ c ∈ gap, isPad c = true) ∧ head ≠ [] ∧
      (∀ c ∈ head, isBlank c = false) ∧ more.head?.all isBlank = true := by
  refine ⟨rest.takeWhile isPad, (rest.dropWhile isPad).takeWhile (!isBlank ·),
    (rest.dropWhile isPad).dropWhile (!isBlank ·), ?_, fun _ hc => List.mem_takeWhile_imp hc, ?_,
    fun c hc => by simpa using List.mem_takeWhile_imp hc, ?_⟩
  · rw [List.takeWhile_append_dropWhile, List.takeWhile_append_dropWhile]
  · intro hnil
    rw [tokenAfter?_append, hnil] at h
    cases h
  · have hstops := Text.stops_dropWhile (!isBlank ·) (rest.dropWhile isPad)
    cases hhead : ((rest.dropWhile isPad).dropWhile (!isBlank ·)).head? with
    | none => rfl
    | some c => simpa using hstops c hhead

/-- A label fits in front of any code that does not go on with it, with the token behind it as the
head. -/
theorem IsLabel.exists_fits (h : IsLabel label rest) :
    ∃ gap head more, rest = gap ++ (head ++ more) ∧ Fits .label ⟨[], label, gap, head⟩ more := by
  cases htoken : tokenAfter? (label ++ rest) label.length with
  | none => exact ⟨[], [], rest, rfl, .label h (tokenAfter?_eq_none_iff.mp htoken)⟩
  | some span =>
      obtain ⟨gap, head, more, rfl, hgap, hne, hhead, hmore⟩ := exists_of_tokenAfter? htoken
      exact ⟨gap, head, more, rfl, .labelled h hgap hne hhead hmore⟩

end labels

/-! ## Operations -/

section operations

variable {front gap word rest code : Text}

theorem wordAfterBlank?_append (front rest : Text) :
    wordAfterBlank? (front ++ rest) front.length =
      let gap := rest.takeWhile isBlank
      let word := (rest.dropWhile isBlank).takeWhile isWord
      if gap.isEmpty || word.isEmpty then none
      else some ⟨front.length + gap.length, word.length⟩ := by
  rw [wordAfterBlank?, List.drop_left]

theorem stops_isBlank_of_isHead (h : IsHead word rest) : Stops isBlank (word ++ rest) := by
  obtain ⟨c, word, rfl⟩ := List.exists_cons_of_ne_nil h.ne_nil
  exact Text.stops_cons.mpr (Text.isBlank_of_isWord (h.all_isWord c List.mem_cons_self))

theorem wordAfterBlank?_of_isHead
    (hne : gap ≠ []) (hgap : allBlank gap) (hword : IsHead word rest) :
    wordAfterBlank? (front ++ (gap ++ (word ++ rest))) front.length =
      some ⟨front.length + gap.length, word.length⟩ := by
  have hblank := Text.allBlank_iff.mp hgap
  have hstops := stops_isBlank_of_isHead hword
  rw [wordAfterBlank?_append, Text.takeWhile_append_of_stops hblank hstops,
    Text.dropWhile_append_of_stops hblank hstops,
    Text.takeWhile_append_of_stops hword.all_isWord hword.stops]
  simp [hne, hword.ne_nil]

theorem exists_of_wordAfterBlank? {span : Span}
    (h : wordAfterBlank? (front ++ rest) front.length = some span) :
    ∃ gap word more, rest = gap ++ (word ++ more) ∧ gap ≠ [] ∧ allBlank gap ∧
      IsHead word more := by
  rw [wordAfterBlank?_append] at h
  by_cases hne : rest.takeWhile isBlank = []
  · simp [hne] at h
  · by_cases hword : (rest.dropWhile isBlank).takeWhile isWord = []
    · simp [hword] at h
    · refine ⟨_, _, _, ?_, hne, Text.allBlank_takeWhile rest, isHead_takeWhile hword⟩
      rw [List.takeWhile_append_dropWhile, List.takeWhile_append_dropWhile]

theorem operation?_of_blank {c : Char} (hblank : isBlank c = true) :
    operation? (c :: rest) = (wordAfterBlank? (c :: rest) 0).map fun span => ⟨none, span⟩ := by
  unfold operation?
  split
  · rename_i heq
    obtain ⟨rfl, _⟩ := List.cons.inj heq
    exact absurd hblank (by decide)
  · rfl

theorem stops_isWord_close {close : Text}
    (hclose : close = [] ∨ close = [')']) (hrest : rest.head?.all isBlank = true) :
    Stops isWord (close ++ rest) := by
  rcases hclose with rfl | rfl
  · exact stops_isWord_of_blank hrest
  · exact Text.stops_cons.mpr (by decide)

theorem conditionLength_append {close : Text}
    (hclose : close = [] ∨ close = [')']) (hrest : rest.head?.all isBlank = true) :
    conditionLength word (close ++ rest) = word.length + close.length + 1 := by
  rcases hclose with rfl | rfl
  · have hparen : rest.head? ≠ some ')' := by
      intro hparen
      rw [hparen] at hrest
      exact absurd hrest (by decide)
    simp [conditionLength, hparen]
  · simp [conditionLength]

theorem operation?_of_isCondition {condition : Text}
    (hcondition : IsCondition condition)
    (hne : gap ≠ []) (hgap : allBlank gap) (hword : IsHead word rest) :
    operation? (condition ++ (gap ++ (word ++ rest))) =
      some ⟨some ⟨1, (condition.tail.takeWhile isWord).length⟩,
        ⟨condition.length + gap.length, word.length⟩⟩ := by
  have hafter : wordAfterBlank? (condition ++ (gap ++ (word ++ rest))) condition.length = _ :=
    wordAfterBlank?_of_isHead hne hgap hword
  have hblank : (gap ++ (word ++ rest)).head?.all isBlank = true :=
    Text.head?_blank_of_allBlank hne hgap _
  obtain ⟨name, close, hname, hall, hclose, rfl⟩ := hcondition
  have hstops : Stops isWord (close ++ (gap ++ (word ++ rest))) :=
    stops_isWord_close hclose hblank
  have hlength : conditionLength name (close ++ (gap ++ (word ++ rest))) = _ :=
    conditionLength_append hclose hblank
  have htail : (name ++ close).takeWhile isWord = name := by
    refine Text.takeWhile_append_of_stops hall ?_
    rcases hclose with rfl | rfl
    · exact Text.stops_nil _
    · exact Text.stops_cons.mpr (by decide)
  rw [List.cons_append, List.length_cons, List.length_append] at hafter
  rw [List.cons_append, operation?]
  simp only [List.append_assoc, Text.takeWhile_append_of_stops hall hstops,
    Text.dropWhile_append_of_stops hall hstops, hlength, List.tail_cons, htail] at hafter ⊢
  rw [hafter]
  simp [hname]

theorem exists_of_operation? {op : Operation} (h : operation? code = some op) :
    ∃ f rest, code = f.text ++ rest ∧ Fits .operation f rest := by
  unfold operation? at h
  split at h
  · rename_i rest
    by_cases hname : rest.takeWhile isWord = []
    · simp [hname] at h
    · simp only [List.isEmpty_iff, hname, if_false, Option.map_eq_some_iff] at h
      obtain ⟨span, hspan, _⟩ := h
      have hall : ∀ c ∈ rest.takeWhile isWord, isWord c = true :=
        fun _ hc => List.mem_takeWhile_imp hc
      obtain ⟨close, more, hclose, hdrop, hlength⟩ : ∃ close more,
          (close = [] ∨ close = [')']) ∧ rest.dropWhile isWord = close ++ more ∧
          conditionLength (rest.takeWhile isWord) (rest.dropWhile isWord) =
            ('(' :: (rest.takeWhile isWord ++ close)).length := by
        cases hrest : rest.dropWhile isWord with
        | nil => exact ⟨[], [], .inl rfl, rfl, by simp [conditionLength]⟩
        | cons c more =>
            by_cases hparen : c = ')'
            · subst hparen
              exact ⟨[')'], more, .inr rfl, rfl, by simp [conditionLength]⟩
            · exact ⟨[], c :: more, .inl rfl, rfl, by simp [conditionLength, hparen]⟩
      have hcode : '(' :: rest = '(' :: (rest.takeWhile isWord ++ close) ++ more := by
        rw [List.cons_append, List.append_assoc, ← hdrop, List.takeWhile_append_dropWhile]
      rw [hlength, hcode] at hspan
      obtain ⟨gap, word, later, rfl, hne, hgap, hword⟩ := exists_of_wordAfterBlank? hspan
      refine ⟨⟨[], '(' :: (rest.takeWhile isWord ++ close), gap, word⟩, later, ?_,
        .conditional ⟨_, close, hname, hall, hclose, rfl⟩ hne hgap hword⟩
      rw [hcode]
      simp [Front.text]
  · obtain ⟨span, hspan, _⟩ := Option.map_eq_some_iff.mp h
    have hspan : wordAfterBlank? ([] ++ code) ([] : Text).length = some span := hspan
    obtain ⟨lead, word, more, rfl, hne, hlead, hword⟩ := exists_of_wordAfterBlank? hspan
    exact ⟨⟨lead, [], [], word⟩, more, by simp [Front.text], .operation hne hlead hword⟩

end operations

/-! ## Operands -/

theorem operandAfter?_append (front rest : Text) :
    operandAfter? (front ++ rest) front.length =
      if allBlank rest then none
      else some ⟨front.length + (rest.takeWhile isBlank).length, (Text.trim rest).length⟩ := by
  rw [operandAfter?, List.drop_left]
  simp only [List.isEmpty_iff, Text.trim_eq_nil_iff]

/-! ## Reading the code of a line -/

/-- A reading that has no parts yet. -/
structure Reading.Bare (r : Reading) : Prop where
  label : r.label = none
  directive : r.directive = none
  operation : r.operation = none
  operand : r.operand = none
  condition : r.condition = none

section reading

variable {kind : Kind} {f : Front} {rest code : Text} {base : Reading}

theorem of_span_append (front word rest : Text) :
    Span.of ⟨front.length, word.length⟩ (front ++ (word ++ rest)) = word := by
  simp [Span.of, Span.stop, Text.slice]

theorem labelled?_of_ends {label : Text} (h : EndsLabel label rest) :
    labelled? (label ++ rest) =
      some ⟨⟨0, label.length⟩, tokenAfter? (label ++ rest) label.length⟩ := by
  rw [labelled?, labelLength?_of_ends h]
  rfl

theorem labelled?_of_not_isLabelChar {c : Char} (hc : isLabelChar c = false) :
    labelled? (c :: rest) = none := by
  simp [labelled?, labelLength?, hc]

theorem isLabelChar_of_isBlank {c : Char} (h : isBlank c = true) : isLabelChar c = false := by
  rw [Bool.eq_false_iff]
  intro hlabel
  rw [isBlank_of_isLabelChar hlabel] at h
  cases h

theorem ne_dot_of_isWord {c : Char} (h : isWord c = true) : c ≠ '.' := by
  rintro rfl
  exact absurd h (by decide)

namespace Fits

theorem kind_eq (h : Fits kind f rest) :
    kind = .directive ∨ kind = .label ∨ kind = .operation := by
  cases h <;> simp

theorem directive?_eq (h : Fits kind f rest) :
    directive? (f.text ++ rest) = if kind = .directive then some f.headSpan else none := by
  cases h with
  | directive hlead hword hcolon =>
      have hdirective := directive?_dot hlead hword.all_isWord hword.stops
      rw [if_neg (not_or.mpr ⟨hword.ne_nil, hcolon⟩)] at hdirective
      simpa [Front.text, Front.headSpan] using hdirective
  | label hlabel =>
      simpa [Front.text] using (directive?_label_append hlabel.ends).mpr hlabel.not_directive
  | labelled hlabel =>
      simpa [Front.text] using (directive?_label_append hlabel.ends).mpr hlabel.not_directive
  | operation _ hlead hword =>
      obtain ⟨c, word, rfl⟩ := List.exists_cons_of_ne_nil hword.ne_nil
      have hc := hword.all_isWord c List.mem_cons_self
      simpa [Front.text] using
        directive?_of_ne_dot hlead (Text.isBlank_of_isWord hc) (ne_dot_of_isWord hc)
  | conditional hcondition =>
      obtain ⟨name, close, _, _, _, rfl⟩ := hcondition
      have hparen : ∀ more, directive? ([] ++ '(' :: more) = none :=
        fun _ => directive?_of_ne_dot rfl (by decide) (by decide)
      exact hparen _

theorem labelled?_eq (h : Fits kind f rest) (hkind : kind ≠ .directive) :
    labelled? (f.text ++ rest) =
      if kind = .label then
        some ⟨⟨0, f.margin.length⟩, if f.head.isEmpty then none else some f.headSpan⟩
      else none := by
  cases h with
  | directive => exact absurd rfl hkind
  | label hlabel htoken =>
      have hlabelled := labelled?_of_ends hlabel.ends
      rw [tokenAfter?_eq_none_iff.mpr htoken] at hlabelled
      simpa [Front.text] using hlabelled
  | labelled hlabel hgap hne hhead hrest =>
      have hlabelled := labelled?_of_ends hlabel.ends
      rw [tokenAfter?_of_ink hgap hne hhead hrest] at hlabelled
      simpa [Front.text, Front.headSpan, hne] using hlabelled
  | operation hne hlead =>
      obtain ⟨c, lead, rfl⟩ := List.exists_cons_of_ne_nil hne
      have hc : isBlank c = true := Text.allBlank_iff.mp hlead c List.mem_cons_self
      exact labelled?_of_not_isLabelChar (isLabelChar_of_isBlank hc)
  | conditional hcondition =>
      obtain ⟨name, close, _, _, _, rfl⟩ := hcondition
      exact labelled?_of_not_isLabelChar (by decide)

theorem operation?_eq (h : Fits .operation f rest) :
    operation? (f.text ++ rest) =
      some ⟨if f.margin = [] then none else some ⟨1, (f.margin.tail.takeWhile isWord).length⟩,
        f.headSpan⟩ := by
  cases h with
  | @operation lead word rest hne hlead hword =>
      have hafter : wordAfterBlank? ([] ++ (lead ++ (word ++ rest))) ([] : Text).length = _ :=
        wordAfterBlank?_of_isHead hne hlead hword
      obtain ⟨c, lead, rfl⟩ := List.exists_cons_of_ne_nil hne
      have hc : isBlank c = true := Text.allBlank_iff.mp hlead c List.mem_cons_self
      have hblank : operation? (c :: (lead ++ (word ++ rest))) = _ := operation?_of_blank hc
      rw [List.nil_append, List.cons_append] at hafter
      rw [List.length_nil] at hafter
      simpa [Front.text, Front.headSpan, hafter] using hblank
  | conditional hcondition hne hgap hword =>
      have hop := operation?_of_isCondition hcondition hne hgap hword
      obtain ⟨name, close, _, _, _, rfl⟩ := hcondition
      simpa [Front.text, Front.headSpan] using hop

theorem head?_dot_iff (h : Fits kind f rest) (hkind : kind ≠ .label) :
    f.head ≠ [] ∧ (f.head.head? = some '.' ↔ kind = .directive) := by
  cases h with
  | directive => simp
  | label => exact absurd rfl hkind
  | labelled => exact absurd rfl hkind
  | operation _ _ hword =>
      obtain ⟨c, word, rfl⟩ := List.exists_cons_of_ne_nil hword.ne_nil
      simpa using ne_dot_of_isWord (hword.all_isWord c List.mem_cons_self)
  | conditional _ _ _ hword =>
      obtain ⟨c, word, rfl⟩ := List.exists_cons_of_ne_nil hword.ne_nil
      simpa using ne_dot_of_isWord (hword.all_isWord c List.mem_cons_self)

end Fits

theorem of_headSpan (f : Front) (rest : Text) : f.headSpan.of (f.text ++ rest) = f.head := by
  have h := of_span_append (f.lead ++ (f.margin ++ f.gap)) f.head rest
  simpa [Front.headSpan, Front.text, Nat.add_assoc] using h

theorem readCode_of_fits (hbase : base.Bare) (h : Fits kind f rest) :
    readCode base (f.text ++ rest) = f.reading kind base (f.operand? rest) := by
  obtain ⟨baseKind, text, label, directive, operation, operand, condition, comments, vars, isDoc,
    depth, endsOpen, degraded⟩ := base
  obtain ⟨rfl, rfl, rfl, rfl, rfl⟩ := hbase
  have hdirective := h.directive?_eq
  have hstop := f.stop_headSpan
  rcases h.kind_eq with rfl | rfl | rfl
  · obtain ⟨hne, hdot⟩ := h.head?_dot_iff (by decide)
    simp only [readCode, hdirective, if_true]
    simp [Front.reading, Front.operand?, hne, hdot.mpr rfl, hstop]
  · have hlabelled := h.labelled?_eq (by decide)
    by_cases hne : f.head = []
    · simp only [readCode, hdirective, hlabelled]
      simp [Front.reading, Front.operand?, hne]
    · by_cases hdot : f.head.head? = some '.'
      · simp only [readCode, hdirective, hlabelled]
        simp [Front.reading, Front.operand?, hne, hdot, hstop, of_headSpan]
      · simp only [readCode, hdirective, hlabelled]
        simp [Front.reading, Front.operand?, hne, hdot, hstop, of_headSpan]
  · obtain ⟨hne, hdot⟩ := h.head?_dot_iff (by decide)
    have hlabelled := h.labelled?_eq (by decide)
    have hnodot : f.head.head? ≠ some '.' := by simpa using hdot
    simp only [readCode, hdirective, hlabelled, h.operation?_eq]
    simp [Front.reading, Front.operand?, hne, hnodot, hstop]

/-- Code that starts with no front of any kind. -/
structure Shapeless (code : Text) : Prop where
  directive : directive? code = none
  labelled : labelled? code = none
  operation : operation? code = none

/-- Code without a shape that starts with a word goes on with something that is no blank. -/
theorem Shapeless.exists_head (h : Shapeless code) (hword : code.head?.any isWord = true) :
    ∃ word c more, code = word ++ c :: more ∧ IsHead word (c :: more) ∧ isBlank c = false := by
  have hne : code.takeWhile isWord ≠ [] := by
    cases code with
    | nil => cases hword
    | cons d code =>
        have hd : isWord d = true := hword
        simp [hd]
  have hhead := isHead_takeWhile hne
  have hcode := List.takeWhile_append_dropWhile (p := isWord) (l := code)
  have hrest : (code.dropWhile isWord).head?.all isBlank = false := by
    rw [Bool.eq_false_iff]
    intro hblank
    have hends : EndsLabel (code.takeWhile isWord) (code.dropWhile isWord) :=
      ⟨_, hne, fun c hc => isLabelChar_of_isWord (hhead.all_isWord c hc), .inr ⟨rfl, hblank⟩⟩
    have hlabelled := labelled?_of_ends hends
    rw [hcode, h.labelled] at hlabelled
    cases hlabelled
  cases hdrop : code.dropWhile isWord with
  | nil =>
      rw [hdrop] at hrest
      cases hrest
  | cons c more =>
      rw [hdrop] at hcode hhead hrest
      exact ⟨_, c, more, hcode.symm, hhead, hrest⟩

theorem exists_fits (code : Text) :
    (∃ kind f rest, code = f.text ++ rest ∧ Fits kind f rest) ∨ Shapeless code := by
  cases hdirective : directive? code with
  | some span =>
      obtain ⟨lead, word, rest, rfl, hlead, hword, hcolon⟩ := exists_of_directive? hdirective
      exact .inl ⟨_, ⟨lead, [], [], '.' :: word⟩, rest, by simp [Front.text],
        .directive hlead hword hcolon⟩
  | none =>
      cases hlength : labelLength? code with
      | some n =>
          obtain ⟨label, rest, rfl, hends⟩ := exists_of_labelLength? hlength
          have hlabel : IsLabel label rest :=
            ⟨hends, (directive?_label_append hends).mp hdirective⟩
          obtain ⟨gap, head, more, rfl, hfits⟩ := hlabel.exists_fits
          exact .inl ⟨_, ⟨[], label, gap, head⟩, more, by simp [Front.text], hfits⟩
      | none =>
          cases hoperation : operation? code with
          | some op =>
              obtain ⟨f, rest, hcode, hfits⟩ := exists_of_operation? hoperation
              exact .inl ⟨_, f, rest, hcode, hfits⟩
          | none => exact .inr ⟨hdirective, by rw [labelled?, hlength]; rfl, hoperation⟩

/-- Behind blanks only a dot or a word gives a line its shape. -/
theorem shapeless_of_lead {lead : Text} {c : Char} (hne : lead ≠ []) (hlead : allBlank lead)
    (hblank : isBlank c = false) (hdot : c ≠ '.') (hword : isWord c = false) :
    Shapeless (lead ++ c :: rest) := by
  have hdirective : directive? (lead ++ c :: rest) = none :=
    directive?_of_ne_dot hlead hblank hdot
  have hafter : wordAfterBlank? ([] ++ (lead ++ c :: rest)) ([] : Text).length = none := by
    rw [wordAfterBlank?_append, Text.dropWhile_append_of_stops (Text.allBlank_iff.mp hlead)
      (Text.stops_cons.mpr hblank)]
    simp [hword]
  obtain ⟨d, lead, rfl⟩ := List.exists_cons_of_ne_nil hne
  have hd : isBlank d = true := Text.allBlank_iff.mp hlead d List.mem_cons_self
  refine ⟨hdirective, labelled?_of_not_isLabelChar (isLabelChar_of_isBlank hd), ?_⟩
  rw [List.cons_append, operation?_of_blank hd]
  exact congrArg _ hafter

theorem readCode_of_shapeless (h : Shapeless code) :
    readCode base code =
      { base with kind := if base.text.allBlank then .blank else .unknown } := by
  simp only [readCode, h.directive, h.labelled, h.operation]
  split <;> rfl

theorem Fits.not_shapeless (h : Fits kind f rest) : ¬ Shapeless (f.text ++ rest) := by
  intro hshapeless
  have hdirective := h.directive?_eq
  have hlabelled := hshapeless.labelled
  rw [hshapeless.directive] at hdirective
  rcases h.kind_eq with rfl | rfl | rfl
  · simp at hdirective
  · simp [h.labelled?_eq] at hlabelled
  · have hoperation := hshapeless.operation
    simp [h.operation?_eq] at hoperation

theorem Fits.not_allBlank (h : Fits kind f rest) : allBlank f.text = false := by
  have hword : ∀ {word more : Text}, IsHead word more → allBlank word = false := by
    intro word more hword
    obtain ⟨c, word, rfl⟩ := List.exists_cons_of_ne_nil hword.ne_nil
    simp [Text.isBlank_of_isWord (hword.all_isWord c List.mem_cons_self)]
  have hlabel : ∀ {label more : Text}, IsLabel label more → allBlank label = false := by
    intro label more hlabel
    obtain ⟨run, hne, hrun, hspelled⟩ := hlabel.ends
    obtain ⟨c, run, rfl⟩ := List.exists_cons_of_ne_nil hne
    have hc := isBlank_of_isLabelChar (hrun c List.mem_cons_self)
    rcases hspelled with rfl | ⟨rfl, _⟩ <;> simp [hc]
  cases h with
  | directive => simp [Front.text, show isBlank '.' = false by decide]
  | label h => simp [Front.text, hlabel h]
  | labelled h => simp [Front.text, hlabel h]
  | operation _ _ h => simp [Front.text, hword h]
  | conditional _ _ _ h => simp [Front.text, hword h]

/-! ## Other blanks -/

theorem IsHead.reset {word rest' : Text} (h : IsHead word rest)
    (hrest : rest'.head?.all isBlank = true ∨ rest'.head? = rest.head?) : IsHead word rest' := by
  refine ⟨h.ne_nil, h.all_isWord, ?_⟩
  rcases hrest with hblank | hsame
  · exact stops_isWord_of_blank hblank
  · have hstops := h.stops
    rwa [Stops, ← hsame] at hstops

theorem EndsLabel.reset {label rest' : Text} (h : EndsLabel label rest)
    (hrest : rest.head?.all isBlank = true → rest'.head?.all isBlank = true) :
    EndsLabel label rest' := by
  obtain ⟨run, hne, hrun, hcolon | ⟨hlabel, hblank⟩⟩ := h
  · exact ⟨run, hne, hrun, .inl hcolon⟩
  · exact ⟨run, hne, hrun, .inr ⟨hlabel, hrest hblank⟩⟩

/-- A front with a head fits again with other blanks and another rest, if what stood at the margin
still does and what stood behind a gap still does, and if the rest goes on as it did or with a
blank. -/
theorem Fits.reset {lead gap rest' : Text} (h : Fits kind f rest) (hhead : f.head ≠ [])
    (hlead : allBlank lead) (hstart : kind ≠ .directive → (lead = [] ↔ f.lead = []))
    (hgap : gap = f.gap ∨ (f.margin ≠ [] ∧ gap ≠ [] ∧ ∀ c ∈ gap, isPad c = true))
    (hrest : rest'.head?.all isBlank = true ∨ rest'.head? = rest.head?) :
    Fits kind ⟨lead, f.margin, gap, f.head⟩ rest' := by
  cases h with
  | directive _ hword hcolon =>
      obtain rfl : gap = [] := by simpa using hgap
      refine .directive hlead (hword.reset hrest) ?_
      rcases hrest with hblank | hsame
      · exact head?_ne_colon_of_blank hblank
      · rwa [hsame]
  | label => exact absurd rfl hhead
  | @labelled label _ head _ hlabel hpad hne hink hblank =>
      obtain rfl : lead = [] := (hstart (by decide)).mpr rfl
      have hpad' : ∀ c ∈ gap, isPad c = true := by
        rcases hgap with rfl | hgap
        · exact hpad
        · exact hgap.2.2
      refine .labelled ⟨hlabel.ends.reset ?_, hlabel.not_directive⟩ hpad' hne hink ?_
      · intro hbefore
        obtain ⟨c, more, rfl⟩ := List.exists_cons_of_ne_nil hne
        rcases hgap with rfl | ⟨_, hgap, _⟩
        · simpa [List.head?_append] using hbefore
        · exact Text.head?_blank_of_allBlank hgap
            (Text.allBlank_iff.mpr fun c hc => Text.isBlank_of_isPad (hpad' c hc)) _
      · rcases hrest with hrest | hsame
        · exact hrest
        · rwa [hsame]
  | operation hne _ hword =>
      obtain rfl : gap = [] := by simpa using hgap
      exact .operation (fun hnil => hne ((hstart (by decide)).mp hnil)) hlead (hword.reset hrest)
  | @conditional condition gap' word rest hcondition hne hblank hword =>
      obtain rfl : lead = [] := (hstart (by decide)).mpr rfl
      rcases hgap with rfl | ⟨_, hgap, hpad⟩
      · exact .conditional hcondition hne hblank (hword.reset hrest)
      · exact .conditional hcondition hgap
          (Text.allBlank_iff.mpr fun c hc => Text.isBlank_of_isPad (hpad c hc)) (hword.reset hrest)

end reading

end Line
end AsmColumns
