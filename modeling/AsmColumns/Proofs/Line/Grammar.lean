import AsmColumns.Proofs.Line.Parts

/-!
# The grammar of a line

What makes a line a directive, a labelled line or an operation, said of its code and not of a way
to find it.  Each kind of line has a form, and a line has the first kind whose form it has.  A
derivation takes the code of a line apart into the pieces of one kind, each as long as it can be,
and says where the parts stand.  Every line has one derivation of its kind, and that gives the parts
of its reading.
-/

namespace AsmColumns
namespace Line

open Comment (Convention scan)
open Text (isBlank isPad isWord allBlank Stops)

/-! ## Forms -/

/-- Blanks, a dot and a word, which neither a word character nor a colon follows. -/
def DirectiveForm (code : Text) : Prop :=
  ∃ lead word rest, code = lead ++ '.' :: (word ++ rest) ∧ allBlank lead = true ∧ word ≠ [] ∧
    (∀ c ∈ word, isWord c = true) ∧ ∀ c ∈ rest.head?, isWord c = false ∧ c ≠ ':'

/-- Label characters at the margin up to a colon, a blank or the end. -/
def LabelForm (code : Text) : Prop :=
  ∃ run rest, code = run ++ rest ∧ run ≠ [] ∧ (∀ c ∈ run, isLabelChar c = true) ∧
    ∀ c ∈ rest.head?, c = ':' ∨ isBlank c = true

/-- A word behind blanks, and before them nothing or a condition. -/
def OperationForm (code : Text) : Prop :=
  ∃ condition gap word rest, code = condition ++ (gap ++ (word ++ rest)) ∧
    (condition = [] ∨ IsCondition condition) ∧ gap ≠ [] ∧ allBlank gap = true ∧ word ≠ [] ∧
    ∀ c ∈ word, isWord c = true

/-- The form of each kind of line. -/
def Form (conv : Convention) (continued : Bool) (comments : List Span) (text : Text) :
    Kind → Prop
  | .comment =>
      (continued = true ∧ conv.isBlock = true ∧ ¬ conv.closing <:+: text) ∨
        (comments ≠ [] ∧ allBlank (codeOf comments text) = true)
  | .directive => DirectiveForm (codeOf comments text)
  | .label => LabelForm (codeOf comments text)
  | .operation => OperationForm (codeOf comments text)
  | .blank => allBlank text = true
  | .unknown => True

/-- The order in which the forms are tried. -/
def Kind.precedence : List Kind :=
  [.comment, .directive, .label, .operation, .blank, .unknown]

/-- The kinds whose forms are tried before that of the given kind. -/
def Kind.before (kind : Kind) : List Kind :=
  Kind.precedence.takeWhile (· != kind)

section forms

variable {code : Text}

theorem directive?_isSome_iff : (directive? code).isSome = true ↔ DirectiveForm code := by
  constructor
  · intro h
    obtain ⟨span, hspan⟩ := Option.isSome_iff_exists.mp h
    obtain ⟨lead, word, rest, hcode, hlead, hword, hcolon⟩ := exists_of_directive? hspan
    refine ⟨lead, word, rest, hcode, hlead, hword.ne_nil, hword.all_isWord, fun c hc => ?_⟩
    refine ⟨hword.stops c hc, ?_⟩
    rintro rfl
    exact hcolon hc
  · rintro ⟨lead, word, rest, rfl, hlead, hne, hword, hrest⟩
    have hcolon : rest.head? ≠ some ':' := fun hhead => (hrest ':' hhead).2 rfl
    rw [directive?_dot hlead hword fun c hc => (hrest c hc).1, if_neg (by simp [hne, hcolon])]
    rfl

theorem labelled?_isSome_iff : (labelled? code).isSome = true ↔ LabelForm code := by
  rw [labelled?, Option.isSome_map]
  constructor
  · intro h
    obtain ⟨n, hn⟩ := Option.isSome_iff_exists.mp h
    obtain ⟨label, rest, rfl, run, hne, hrun, rfl | ⟨rfl, hrest⟩⟩ := exists_of_labelLength? hn
    · exact ⟨run, ':' :: rest, by simp, hne, hrun, by simp⟩
    · refine ⟨label, rest, rfl, hne, hrun, fun c hc => .inr ?_⟩
      simpa [Option.mem_def.mp hc] using hrest
  · rintro ⟨run, rest, rfl, hne, hrun, hrest⟩
    obtain ⟨label, rest', hcode, hends⟩ : ∃ label rest', run ++ rest = label ++ rest' ∧
        EndsLabel label rest' := by
      cases rest with
      | nil => exact ⟨run, [], rfl, run, hne, hrun, .inr ⟨rfl, rfl⟩⟩
      | cons c rest =>
          rcases hrest c rfl with rfl | hblank
          · exact ⟨run ++ [':'], rest, by simp, run, hne, hrun, .inl rfl⟩
          · exact ⟨run, c :: rest, rfl, run, hne, hrun, .inr ⟨rfl, hblank⟩⟩
    rw [hcode, labelLength?_of_ends hends]
    rfl

theorem exists_isHead {word : Text} (hne : word ≠ []) (hword : ∀ c ∈ word, isWord c = true)
    (rest : Text) :
    ∃ word' rest', word ++ rest = word' ++ rest' ∧ IsHead word' rest' := by
  refine ⟨word ++ rest.takeWhile isWord, rest.dropWhile isWord, ?_, by simp [hne], ?_,
    Text.stops_dropWhile isWord rest⟩
  · rw [List.append_assoc, List.takeWhile_append_dropWhile]
  · intro c hc
    rcases List.mem_append.mp hc with hc | hc
    · exact hword c hc
    · exact List.mem_takeWhile_imp hc

theorem operation?_isSome_iff : (operation? code).isSome = true ↔ OperationForm code := by
  constructor
  · intro h
    obtain ⟨op, hop⟩ := Option.isSome_iff_exists.mp h
    obtain ⟨f, rest, rfl, hfits⟩ := exists_of_operation? hop
    cases hfits with
    | @operation lead word _ hne hlead hword =>
        exact ⟨[], lead, word, rest, by simp [Front.text], .inl rfl, hne, hlead, hword.ne_nil,
          hword.all_isWord⟩
    | @conditional condition gap word _ hcondition hne hgap hword =>
        exact ⟨condition, gap, word, rest, by simp [Front.text], .inr hcondition, hne, hgap,
          hword.ne_nil, hword.all_isWord⟩
  · rintro ⟨condition, gap, word, rest, rfl, hcondition, hne, hgap, hwordNe, hword⟩
    obtain ⟨word', rest', hwords, hhead⟩ := exists_isHead hwordNe hword rest
    rw [hwords]
    rcases hcondition with rfl | hcondition
    · have hop := Fits.operation?_eq (.operation hne hgap hhead)
      simp only [Front.text, List.nil_append, List.append_assoc] at hop
      simp [hop]
    · have hop := Fits.operation?_eq (.conditional hcondition hne hgap hhead)
      simp only [Front.text, List.nil_append, List.append_assoc] at hop
      simp [hop]

end forms

/-! ## The kind of a line -/

theorem kind_readCode (base : Reading) (code : Text) :
    (readCode base code).kind =
      if (directive? code).isSome then .directive
      else if (labelled? code).isSome then .label
      else if (operation? code).isSome then .operation
      else if base.text.allBlank then .blank
      else .unknown := by
  unfold readCode
  cases directive? code with
  | some span => rfl
  | none =>
      cases labelled? code with
      | some labelled =>
          obtain ⟨label, token⟩ := labelled
          cases token with
          | none => rfl
          | some token =>
              simp only
              split <;> rfl
      | none =>
          cases operation? code with
          | some op => rfl
          | none =>
              simp only
              split <;> rfl

theorem kind_readText (conv : Convention) (continued : Bool) (text : Text) :
    (readText conv continued text).kind =
      if insideBlock conv continued text || (!(scan conv continued text).spans.isEmpty &&
          allBlank (codeOf (scan conv continued text).spans text)) then .comment
      else (readCode (unsorted conv continued text)
        (codeOf (scan conv continued text).spans text)).kind := by
  unfold readText
  simp only
  cases insideBlock conv continued text with
  | true => rfl
  | false =>
      rw [Bool.false_or, if_neg Bool.false_ne_true]
      split <;> rfl

/-- The first of six tests that succeeds picks the kind. -/
theorem first_form_iff {form : Kind → Prop} {comment directive label operation blank : Bool}
    (hcomment : form .comment ↔ comment = true) (hdirective : form .directive ↔ directive = true)
    (hlabel : form .label ↔ label = true) (hoperation : form .operation ↔ operation = true)
    (hblank : form .blank ↔ blank = true) (hunknown : form .unknown) (kind : Kind) :
    (if comment then Kind.comment
      else if directive then .directive
      else if label then .label
      else if operation then .operation
      else if blank then .blank
      else .unknown) = kind ↔ form kind ∧ ∀ other ∈ kind.before, ¬ form other := by
  have hbefore : kind.before = match kind with
      | .comment => []
      | .directive => [.comment]
      | .label => [.comment, .directive]
      | .operation => [.comment, .directive, .label]
      | .blank => [.comment, .directive, .label, .operation]
      | .unknown => [.comment, .directive, .label, .operation, .blank] := by
    cases kind <;> rfl
  rw [hbefore]
  cases kind <;> simp only [List.forall_mem_cons, List.not_mem_nil, false_implies, implies_true,
    and_true, hcomment, hdirective, hlabel, hoperation, hblank, hunknown, true_and] <;>
    cases comment <;> cases directive <;> cases label <;> cases operation <;> cases blank <;>
    simp

theorem kind_readText_iff (conv : Convention) (continued : Bool) (text : Text) (kind : Kind) :
    (readText conv continued text).kind = kind ↔
      Form conv continued (scan conv continued text).spans text kind ∧
        ∀ other ∈ kind.before,
          ¬ Form conv continued (scan conv continued text).spans text other := by
  rw [kind_readText, kind_readCode]
  refine first_form_iff ?_ directive?_isSome_iff.symm labelled?_isSome_iff.symm
    operation?_isSome_iff.symm Iff.rfl trivial kind
  rw [Form, ← Text.occursIn_iff, insideBlock]
  simp [and_assoc]

/-! ## Derivations -/

/-- The spans of the parts of a line. -/
structure Parts where
  label : Option Span := none
  condition : Option Span := none
  directive : Option Span := none
  operation : Option Span := none
  operand : Option Span := none

def Reading.parts (r : Reading) : Parts :=
  ⟨r.label, r.condition, r.directive, r.operation, r.operand⟩

/-- The operand in the rest of the code from an offset on: all of it from its first to its last
character that is not blank. -/
inductive IsOperand (offset : Nat) : Text → Option Span → Prop where
  | none {rest : Text} : allBlank rest = true → IsOperand offset rest none
  | some {lead body tail : Text} :
      allBlank lead = true → body.head?.any (!isBlank ·) = true →
      body.getLast?.any (!isBlank ·) = true → allBlank tail = true →
      IsOperand offset (lead ++ (body ++ tail)) (some ⟨offset + lead.length, body.length⟩)

/-- The pieces of the code of a line of the given kind, and the parts that they make up.  Each
piece ends where the next character cannot belong to it. -/
inductive Derives : Kind → List Text → Parts → Prop where
  | directive {lead word rest : Text} {operand : Option Span} :
      allBlank lead = true → IsHead word rest → rest.head? ≠ some ':' →
      IsOperand (lead.length + (word.length + 1)) rest operand →
      Derives .directive [lead, '.' :: word, rest]
        { directive := some ⟨lead.length, word.length + 1⟩, operand }
  | label {label gap rest : Text} :
      EndsLabel label (gap ++ rest) → (∀ c ∈ gap, isPad c = true) → Stops isPad rest →
      rest.head?.all isBlank = true →
      Derives .label [label, gap, rest] { label := some ⟨0, label.length⟩ }
  | labelled {label gap token rest : Text} {operand : Option Span} :
      EndsLabel label (gap ++ (token ++ rest)) → (∀ c ∈ gap, isPad c = true) →
      token ≠ [] → (∀ c ∈ token, isBlank c = false) → rest.head?.all isBlank = true →
      IsOperand (label.length + gap.length + token.length) rest operand →
      Derives .label [label, gap, token, rest]
        { label := some ⟨0, label.length⟩
          directive :=
            if token.head? = some '.' then some ⟨label.length + gap.length, token.length⟩ else none
          operation :=
            if token.head? = some '.' then none else some ⟨label.length + gap.length, token.length⟩
          operand }
  | operation {lead word rest : Text} {operand : Option Span} :
      lead ≠ [] → allBlank lead = true → IsHead word rest →
      IsOperand (lead.length + word.length) rest operand →
      Derives .operation [lead, word, rest]
        { operation := some ⟨lead.length, word.length⟩, operand }
  | conditional {condition close gap word rest : Text} {operand : Option Span} :
      condition ≠ [] → (∀ c ∈ condition, isWord c = true) → (close = [] ∨ close = [')']) →
      gap ≠ [] → allBlank gap = true → IsHead word rest →
      IsOperand (1 + condition.length + close.length + gap.length + word.length) rest operand →
      Derives .operation [['('], condition, close, gap, word, rest]
        { condition := some ⟨1, condition.length⟩
          operation :=
            some ⟨1 + condition.length + close.length + gap.length, word.length⟩
          operand }
  | bare {kind : Kind} {code : Text} :
      kind = .comment ∨ kind = .blank ∨ kind = .unknown → Derives kind [code] {}

/-! ### One derivation at most -/

section unique

variable {p : Char → Bool} {run rest run' rest' : Text}

theorem append_inj_of_stops (hrun : ∀ c ∈ run, p c = true) (hstops : Stops p rest)
    (hrun' : ∀ c ∈ run', p c = true) (hstops' : Stops p rest')
    (h : run ++ rest = run' ++ rest') : run = run' ∧ rest = rest' := by
  have htake := congrArg (List.takeWhile p) h
  have hdrop := congrArg (List.dropWhile p) h
  rw [Text.takeWhile_append_of_stops hrun hstops,
    Text.takeWhile_append_of_stops hrun' hstops'] at htake
  rw [Text.dropWhile_append_of_stops hrun hstops,
    Text.dropWhile_append_of_stops hrun' hstops'] at hdrop
  exact ⟨htake, hdrop⟩

theorem IsHead.unique (h : IsHead run rest) (h' : IsHead run' rest')
    (hcode : run ++ rest = run' ++ rest') : run = run' ∧ rest = rest' :=
  append_inj_of_stops h.all_isWord h.stops h'.all_isWord h'.stops hcode

theorem EndsLabel.unique (h : EndsLabel run rest) (h' : EndsLabel run' rest')
    (hcode : run ++ rest = run' ++ rest') : run = run' ∧ rest = rest' := by
  have hlength := labelLength?_of_ends h
  rw [hcode, labelLength?_of_ends h'] at hlength
  exact List.append_inj hcode (Option.some.inj hlength).symm

theorem trim_of_ends {lead body tail : Text} (hlead : allBlank lead = true)
    (hhead : body.head?.any (!isBlank ·) = true) (hlast : body.getLast?.any (!isBlank ·) = true)
    (htail : allBlank tail = true) :
    (lead ++ (body ++ tail)).takeWhile isBlank = lead ∧
      Text.trim (lead ++ (body ++ tail)) = body := by
  obtain ⟨c, more, rfl⟩ : ∃ c more, body = c :: more :=
    List.exists_cons_of_ne_nil (by rintro rfl; cases hhead)
  have hc : isBlank c = false := by simpa using hhead
  constructor
  · exact Text.takeWhile_append_of_stops (Text.allBlank_iff.mp hlead) (Text.stops_cons.mpr hc)
  · rw [Text.trim_lead hlead, Text.trim_append_of_allBlank htail, Text.trim,
      Text.trimLeft_of_stops (by simpa using hc)]
    refine List.rdropWhile_eq_self_iff.mpr fun hne => ?_
    rw [List.getLast?_eq_some_getLast hne] at hlast
    simpa using hlast

theorem isOperand_iff {offset : Nat} {front : Text} {operand : Option Span}
    (hoffset : offset = front.length) :
    IsOperand offset rest operand ↔ operandAfter? (front ++ rest) front.length = operand := by
  subst hoffset
  rw [operandAfter?_append]
  constructor
  · intro h
    cases h with
    | none hblank => rw [if_pos hblank]
    | @some lead body tail hlead hhead hlast htail =>
        obtain ⟨htake, htrim⟩ := trim_of_ends hlead hhead hlast htail
        have hink : allBlank (lead ++ (body ++ tail)) ≠ true := by
          intro hblank
          rw [Text.trim_eq_nil_iff.mpr hblank] at htrim
          subst htrim
          cases hhead
        rw [if_neg hink, htake, htrim]
  · rintro rfl
    split
    · next hblank => exact .none hblank
    · next hink =>
        rw [Bool.not_eq_true] at hink
        have hpieces := Text.lead_trim_tail rest
        have hoperand : IsOperand front.length
            (rest.takeWhile isBlank ++ (rest.trim ++ Text.takeTail isBlank rest.trimLeft))
            (some ⟨front.length + (rest.takeWhile isBlank).length, rest.trim.length⟩) := by
          refine .some (Text.allBlank_takeWhile rest) ?_ ?_
            (Text.allBlank_takeTail rest.trimLeft)
          · obtain ⟨c, more, htrim, hc⟩ := Text.exists_trim_eq_cons hink
            simp [htrim, hc]
          · obtain ⟨more, c, htrim, hc⟩ := Text.exists_trim_eq_concat hink
            simp [htrim, hc]
        rwa [hpieces] at hoperand

theorem IsOperand.unique {offset : Nat} {operand operand' : Option Span}
    (h : IsOperand offset rest operand) (h' : IsOperand offset rest operand') :
    operand = operand' := by
  have hoffset : offset = (List.replicate offset ' ').length := by simp
  rw [isOperand_iff hoffset] at h h'
  exact h.symm.trans h'

theorem labelled_ne_label {label gap token label' gap' : Text}
    (hends : EndsLabel label (gap ++ (token ++ rest))) (hgap : ∀ c ∈ gap, isPad c = true)
    (hne : token ≠ []) (htoken : ∀ c ∈ token, isBlank c = false)
    (hends' : EndsLabel label' (gap' ++ rest')) (hgap' : ∀ c ∈ gap', isPad c = true)
    (hstops : Stops isPad rest') (hblank : rest'.head?.all isBlank = true) :
    label ++ (gap ++ (token ++ rest)) ≠ label' ++ (gap' ++ rest') := by
  intro hcode
  obtain ⟨rfl, hbehind⟩ := hends.unique hends' hcode
  obtain ⟨_, rfl⟩ := append_inj_of_stops hgap (stops_isPad_of_ink hne htoken) hgap' hstops hbehind
  obtain ⟨c, token, rfl⟩ := List.exists_cons_of_ne_nil hne
  simp [htoken c List.mem_cons_self] at hblank

theorem operation_ne_conditional {lead : Text} (hne : lead ≠ []) (hlead : allBlank lead = true)
    (more more' : Text) : lead ++ more ≠ '(' :: more' := by
  obtain ⟨c, lead, rfl⟩ := List.exists_cons_of_ne_nil hne
  intro hcode
  obtain rfl : c = '(' := (List.cons.inj hcode).1
  exact absurd (Text.allBlank_iff.mp hlead '(' List.mem_cons_self) (by decide)

/-- The blanks and the word behind them in an operation. -/
theorem blanks_word_unique {gap word gap' word' : Text}
    (hgap : allBlank gap = true) (hword : IsHead word rest)
    (hgap' : allBlank gap' = true) (hword' : IsHead word' rest')
    (hcode : gap ++ (word ++ rest) = gap' ++ (word' ++ rest')) :
    gap = gap' ∧ word = word' ∧ rest = rest' := by
  obtain ⟨hgaps, hwords⟩ := append_inj_of_stops (Text.allBlank_iff.mp hgap)
    (stops_isBlank_of_isHead hword) (Text.allBlank_iff.mp hgap')
    (stops_isBlank_of_isHead hword') hcode
  exact ⟨hgaps, hword.unique hword' hwords⟩

/-- The second parenthesis of a condition is there if the next character is not blank. -/
theorem close_unique {close gap close' gap' : Text}
    (hclose : close = [] ∨ close = [')']) (hgap : gap.head?.all isBlank = true)
    (hclose' : close' = [] ∨ close' = [')']) (hgap' : gap'.head?.all isBlank = true)
    (hcode : close ++ gap = close' ++ gap') : close = close' ∧ gap = gap' := by
  rcases hclose with rfl | rfl <;> rcases hclose' with rfl | rfl
  · exact ⟨rfl, hcode⟩
  · rw [List.nil_append] at hcode
    rw [hcode] at hgap
    exact absurd (show isBlank ')' = true from hgap) (by decide)
  · rw [List.nil_append] at hcode
    rw [← hcode] at hgap'
    exact absurd (show isBlank ')' = true from hgap') (by decide)
  · exact ⟨rfl, (List.cons.inj hcode).2⟩

theorem Derives.unique {kind : Kind} {pieces pieces' : List Text} {parts parts' : Parts}
    (h : Derives kind pieces parts) (h' : Derives kind pieces' parts')
    (hcode : pieces.flatten = pieces'.flatten) : pieces = pieces' ∧ parts = parts' := by
  cases h with
  | directive hlead hword hcolon hoperand =>
      cases h' with
      | bare hkind => simp at hkind
      | directive hlead' hword' hcolon' hoperand' =>
          simp only [List.flatten_cons, List.flatten_nil, List.append_nil,
            List.cons_append] at hcode
          obtain ⟨rfl, hwords⟩ := append_inj_of_stops (Text.allBlank_iff.mp hlead)
            (Text.stops_cons.mpr (by decide)) (Text.allBlank_iff.mp hlead')
            (Text.stops_cons.mpr (by decide)) hcode
          obtain ⟨rfl, rfl⟩ := hword.unique hword' (List.cons.inj hwords).2
          obtain rfl := hoperand.unique hoperand'
          exact ⟨rfl, rfl⟩
  | label hends hgap hstops hblank =>
      cases h' with
      | bare hkind => simp at hkind
      | label hends' hgap' hstops' hblank' =>
          simp only [List.flatten_cons, List.flatten_nil, List.append_nil] at hcode
          obtain ⟨rfl, hbehind⟩ := hends.unique hends' hcode
          obtain ⟨rfl, rfl⟩ := append_inj_of_stops hgap hstops hgap' hstops' hbehind
          exact ⟨rfl, rfl⟩
      | labelled hends' hgap' hne' htoken' hblank' hoperand' =>
          simp only [List.flatten_cons, List.flatten_nil, List.append_nil] at hcode
          exact absurd hcode.symm
            (labelled_ne_label hends' hgap' hne' htoken' hends hgap hstops hblank)
  | labelled hends hgap hne htoken hblank hoperand =>
      cases h' with
      | bare hkind => simp at hkind
      | label hends' hgap' hstops' hblank' =>
          simp only [List.flatten_cons, List.flatten_nil, List.append_nil] at hcode
          exact absurd hcode
            (labelled_ne_label hends hgap hne htoken hends' hgap' hstops' hblank')
      | labelled hends' hgap' hne' htoken' hblank' hoperand' =>
          simp only [List.flatten_cons, List.flatten_nil, List.append_nil] at hcode
          obtain ⟨rfl, hbehind⟩ := hends.unique hends' hcode
          obtain ⟨rfl, htokens⟩ := append_inj_of_stops hgap (stops_isPad_of_ink hne htoken) hgap'
            (stops_isPad_of_ink hne' htoken') hbehind
          obtain ⟨rfl, rfl⟩ := append_inj_of_stops (by simpa using htoken)
            (stops_ink_of_blank hblank) (by simpa using htoken') (stops_ink_of_blank hblank')
            htokens
          obtain rfl := hoperand.unique hoperand'
          exact ⟨rfl, rfl⟩
  | operation hne hlead hword hoperand =>
      cases h' with
      | bare hkind => simp at hkind
      | operation hne' hlead' hword' hoperand' =>
          simp only [List.flatten_cons, List.flatten_nil, List.append_nil] at hcode
          obtain ⟨rfl, rfl, rfl⟩ := blanks_word_unique hlead hword hlead' hword' hcode
          obtain rfl := hoperand.unique hoperand'
          exact ⟨rfl, rfl⟩
      | conditional => exact absurd hcode (operation_ne_conditional hne hlead _ _)
  | @conditional condition close gap word rest _ hne hcondition hclose hgapNe hgap hword hoperand =>
      cases h' with
      | bare hkind => simp at hkind
      | operation hne' hlead' => exact absurd hcode.symm (operation_ne_conditional hne' hlead' _ _)
      | @conditional condition' close' gap' word' rest' _ hne' hcondition' hclose' hgapNe' hgap'
          hword' hoperand' =>
          simp only [List.flatten_cons, List.flatten_nil, List.append_nil,
            List.singleton_append] at hcode
          have hblank := Text.head?_blank_of_allBlank hgapNe hgap (word ++ rest)
          have hblank' := Text.head?_blank_of_allBlank hgapNe' hgap' (word' ++ rest')
          obtain ⟨rfl, hclosed⟩ := append_inj_of_stops hcondition
            (stops_isWord_close hclose hblank) hcondition'
            (stops_isWord_close hclose' hblank') (List.cons.inj hcode).2
          obtain ⟨rfl, hwords⟩ := close_unique hclose hblank hclose' hblank' hclosed
          obtain ⟨rfl, rfl, rfl⟩ := blanks_word_unique hgap hword hgap' hword' hwords
          obtain rfl := hoperand.unique hoperand'
          exact ⟨rfl, rfl⟩
  | bare hkind =>
      cases h' with
      | bare => simpa using hcode
      | _ => simp at hkind

end unique

/-! ### A derivation of every line -/

theorem exists_derives {kind : Kind} {f : Front} {rest : Text} (base : Reading)
    (h : Fits kind f rest) :
    ∃ pieces : List Text, pieces.flatten = f.text ++ rest ∧
      Derives kind pieces (f.reading kind base (f.operand? rest)).parts := by
  have hoperand : ∀ {offset : Nat}, f.head ≠ [] → offset = f.text.length →
      IsOperand offset rest (f.operand? rest) := by
    intro offset hhead hoffset
    rw [isOperand_iff hoffset, Front.operand?, if_neg (by simpa using hhead)]
  cases h with
  | @directive lead word _ hlead hword hcolon =>
      refine ⟨[lead, '.' :: word, rest], by simp [Front.text], ?_⟩
      simpa [Reading.parts, Front.reading, Front.headSpan] using
        Derives.directive hlead hword hcolon (hoperand (by simp) (by simp [Front.text]))
  | @label label _ hlabel htoken =>
      refine ⟨[label, rest.takeWhile isPad, rest.dropWhile isPad], by simp [Front.text], ?_⟩
      have hends : EndsLabel label (rest.takeWhile isPad ++ rest.dropWhile isPad) := by
        rw [List.takeWhile_append_dropWhile]
        exact hlabel.ends
      simpa [Reading.parts, Front.reading, Front.operand?] using
        Derives.label hends (fun c hc => List.mem_takeWhile_imp hc)
          (Text.stops_dropWhile isPad rest) htoken
  | @labelled label gap head _ hlabel hgap hne hhead hrest =>
      refine ⟨[label, gap, head, rest], by simp [Front.text], ?_⟩
      simpa [Reading.parts, Front.reading, Front.headSpan, hne] using
        Derives.labelled hlabel.ends hgap hne hhead hrest
          (hoperand hne (by simp [Front.text, Nat.add_assoc]))
  | @operation lead word _ hne hlead hword =>
      refine ⟨[lead, word, rest], by simp [Front.text], ?_⟩
      have hdot := (Fits.operation hne hlead hword).head?_dot_iff (by decide)
      simpa [Reading.parts, Front.reading, Front.headSpan, hdot] using
        Derives.operation hne hlead hword (hoperand hword.ne_nil (by simp [Front.text]))
  | @conditional condition gap word _ hcondition hne hgap hword =>
      have hdot := (Fits.conditional hcondition hne hgap hword).head?_dot_iff (by decide)
      obtain ⟨name, close, hname, hall, hclose, rfl, htail⟩ := hcondition.takeWhile_tail
      rw [List.tail_cons] at htail
      refine ⟨[['('], name, close, gap, word, rest], by simp [Front.text], ?_⟩
      have hlength : 1 + name.length + close.length = ('(' :: (name ++ close)).length := by
        rw [List.length_cons, List.length_append]
        omega
      have hderives := Derives.conditional hname hall hclose hne hgap hword
        (hoperand hword.ne_nil (by rw [hlength]; simp [Front.text]; omega))
      rw [hlength] at hderives
      simpa [Reading.parts, Front.reading, Front.headSpan, hdot, htail] using hderives

theorem derives_of_bare {r : Reading} (h : r.Bare)
    (hkind : r.kind = .comment ∨ r.kind = .blank ∨ r.kind = .unknown) (code : Text) :
    Derives r.kind [code] r.parts := by
  have hparts : r.parts = {} := by
    simp [Reading.parts, h.label, h.condition, h.directive, h.operation, h.operand]
  rw [hparts]
  exact .bare hkind

theorem exists_derives_readText (conv : Convention) (continued : Bool) (text : Text) :
    ∃ pieces : List Text, pieces.flatten = codeOf (scan conv continued text).spans text ∧
      Derives (readText conv continued text).kind pieces (readText conv continued text).parts := by
  obtain ⟨marks, h, hblank | ⟨hink, hshapeless⟩ | ⟨kind, f, rest, hcode, hfits⟩⟩ :=
    readText_cases conv continued text
  · obtain ⟨hbare, hkind⟩ := readText_of_allBlank h hblank
    exact ⟨[_], List.flatten_singleton, derives_of_bare hbare (hkind.imp id (.inl ·.1)) _⟩
  · refine ⟨[_], List.flatten_singleton, derives_of_bare ?_ ?_ _⟩
    · rw [readText_of_shapeless h hink hshapeless]
      exact ⟨rfl, rfl, rfl, rfl, rfl⟩
    · rw [readText_of_shapeless h hink hshapeless]
      exact .inr (.inr rfl)
  · rw [h.codeOf_eq, hcode, readText_of_fits h hcode hfits]
    exact exists_derives (unsorted conv continued text) hfits

/-- A line has the first kind whose form it has, and its parts are those of the one derivation of
its code. -/
theorem read_derives (style : Comment.Style) (continued : Bool) (text : Text) :
    let r := read (.ofStyle style) continued (some text)
    (∀ kind, r.kind = kind ↔
      Form (.ofStyle style) continued r.comments text kind ∧
        ∀ other ∈ kind.before, ¬ Form (.ofStyle style) continued r.comments text other) ∧
    ∃ pieces : List Text, pieces.flatten = codeOf r.comments text ∧
      Derives r.kind pieces r.parts ∧
      ∀ pieces' parts', pieces'.flatten = codeOf r.comments text →
        Derives r.kind pieces' parts' → pieces' = pieces ∧ parts' = r.parts := by
  intro r
  have hr : r = readText (.ofStyle style) continued text :=
    read_eq_readText (Comment.sharp_ofStyle style) continued text
  rw [hr, comments_readText]
  refine ⟨kind_readText_iff (.ofStyle style) continued text, ?_⟩
  obtain ⟨pieces, hcode, hderives⟩ := exists_derives_readText (.ofStyle style) continued text
  refine ⟨pieces, hcode, hderives, fun pieces' parts' hcode' hderives' => ?_⟩
  exact hderives'.unique hderives (hcode'.trans hcode.symm)

end Line
end AsmColumns
