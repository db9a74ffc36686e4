import AsmColumns.Proofs.Layout.Fields

/-!
# Seams

The layout puts a blank before the head of a labelled line and before every operand.  Where the two
parts touched, the first character behind the seam now follows a blank, and two characters are read
otherwise there: a star, which opens a comment in the style that has stars for comments, and a
single quote, which is no longer a prime and opens a quotation if another quote follows.

A line without such a seam keeps its comments when it is set in columns: the code that is laid out
is code again, and the first comment is where the layout put it.
-/

namespace AsmColumns
namespace Layout

open Comment (Convention Quoting Scans Walks advance blanked marked scan isPlain lastOf)
open Line (Front Fits Kind Reading IsCut readText unsorted)
open Text (isBlank isWord allBlank)

/-- The offset at which two parts of a line touch that the layout sets apart. -/
def seam? (r : Reading) : Option Nat :=
  if isRigid r then none
  else
    match head? r with
    | none => none
    | some head =>
        if r.label.any (·.stop == head.start) then some head.start
        else (r.operand.filter (·.start == head.stop)).map (·.start)

/-- Whether a text starts otherwise behind a blank than behind a word, or behind another character
that is no blank. -/
def rereads (conv : Convention) (behindWord : Bool) : Text → Bool
  | '*' :: _ => conv.style == .lineStar
  | '\'' :: rest => behindWord && rest.contains '\''
  | _ => false

/-- Whether the line has a seam, and what stands behind it is read otherwise behind a blank. -/
def tears (conv : Convention) (r : Reading) : Bool :=
  (seam? r).any fun i => rereads conv r.label.isNone (r.text.drop i)

theorem rereads_iff {conv : Convention} {behindWord : Bool} {c : Char} {rest : Text} :
    rereads conv behindWord (c :: rest) = true ↔
      (c = '*' ∧ conv.style = .lineStar) ∨ (c = '\'' ∧ behindWord = true ∧ '\'' ∈ rest) := by
  by_cases hstar : c = '*'
  · subst hstar
    simp [rereads]
  · by_cases hquote : c = '\''
    · subst hquote
      simp [rereads]
    · simp [rereads, hstar, hquote]

theorem advance_of_rereads {conv : Convention} (hsharp : conv.Sharp) {behindWord : Bool}
    {state : Quoting} {before before' : Option Char} {c : Char} {rest : Text}
    (hbefore : behindWord = false → before.any isWord = false)
    (hbefore' : before'.all isBlank = true)
    (h : rereads conv behindWord (c :: rest) = false) :
    advance conv state before c rest = advance conv state before' c rest := by
  apply Comment.advance_congr_before hsharp
  · rintro rfl hquote
    have hword : behindWord = false := by simpa [rereads, hquote] using h
    rw [hbefore hword, Comment.any_isWord_of_all_isBlank hbefore']
  · rintro hstyle rfl
    simp [rereads, hstyle] at h

/-! ## The seam of a cut line -/

section cut

variable {conv : Convention} {continued : Bool} {text body tail rest : Text} {kind : Kind}
  {f : Front} {tailMarks : List Bool}

theorem isPlain_of_isWord {c : Char} (h : isWord c = true) : isPlain c = true := by
  simp [isPlain, Line.isLabelChar, h]

theorem isPlain_of_mem_label {label : Text} (h : Line.EndsLabel label rest) {c : Char}
    (hc : c ∈ label) : isPlain c = true := by
  obtain ⟨run, _, hrun, rfl | ⟨rfl, _⟩⟩ := h
  · rcases List.mem_append.mp hc with hc | hc
    · simp [isPlain, hrun c hc]
    · rw [List.mem_singleton.mp hc]
      decide
  · simp [isPlain, hrun c hc]

theorem isPlain_of_mem_margin (h : Fits kind f rest) {c : Char} (hc : c ∈ f.margin) :
    isPlain c = true := by
  cases h with
  | label hlabel => exact isPlain_of_mem_label hlabel.ends hc
  | labelled hlabel => exact isPlain_of_mem_label hlabel.ends hc
  | conditional hcondition =>
      obtain ⟨word, close, _, hword, hclose, rfl⟩ := hcondition
      simp only [List.mem_cons, List.mem_append] at hc
      rcases hc with rfl | hc | hc
      · decide
      · exact isPlain_of_isWord (hword c hc)
      · rcases hclose with rfl | rfl
        · cases hc
        · rw [List.mem_singleton.mp hc]
          decide
  | directive | operation => cases hc

theorem isPlain_of_mem_head (h : Fits kind f rest) (hkind : kind ≠ .label) {c : Char}
    (hc : c ∈ f.head) : isPlain c = true := by
  cases h with
  | directive _ hword =>
      rcases List.mem_cons.mp hc with rfl | hc
      · decide
      · exact isPlain_of_isWord (hword.all_isWord c hc)
  | label => exact absurd rfl hkind
  | labelled => exact absurd rfl hkind
  | operation _ _ hword => exact isPlain_of_isWord (hword.all_isWord c hc)
  | conditional _ _ _ hword => exact isPlain_of_isWord (hword.all_isWord c hc)

theorem blank_behind_head (h : Fits .label f (body ++ rest)) (hhead : f.head ≠ []) :
    body.head?.all isBlank = true := by
  cases h with
  | label => exact absurd rfl hhead
  | labelled _ _ _ _ hrest =>
      cases body with
      | nil => rfl
      | cons c body => exact hrest

/-- A label that touches what follows it ends in a colon. -/
theorem colon_of_touching (h : Fits .label f rest) (hhead : f.head ≠ []) (hgap : f.gap = []) :
    ∃ run, f.margin = run ++ [':'] := by
  cases h with
  | label => exact absurd rfl hhead
  | @labelled label gap head rest hlabel _ _ hink =>
      obtain ⟨run, _, _, hcolon | ⟨_, hblank⟩⟩ := hlabel.ends
      · exact ⟨run, hcolon⟩
      · obtain rfl : gap = [] := hgap
        obtain ⟨c, head, rfl⟩ := List.exists_cons_of_ne_nil hhead
        have hc : isBlank c = true := hblank
        simp [hink c List.mem_cons_self] at hc

variable (h : IsCut conv continued text kind f body tail tailMarks)
include h

theorem touching_operand (hhead : f.head ≠ []) :
    ((readText conv continued text).operand.filter (·.start == f.headSpan.stop)).map (·.start) =
      if body.head?.all isBlank then none else some f.text.length := by
  rw [operand_readText h, f.stop_headSpan]
  cases body with
  | nil => simp
  | cons c body =>
      cases hc : isBlank c <;> simp [hhead, hc]

theorem seam?_of_label (hhead : f.head ≠ []) (hkind : kind = .label) :
    seam? (readText conv continued text) = if f.gap = [] then some f.margin.length else none := by
  subst hkind
  have hfits := h.fits
  obtain ⟨hlead, _⟩ := margin_ne_nil_of_label hfits
  have hlabel : (readText conv continued text).label = some ⟨0, f.margin.length⟩ := by
    rw [h.readText_eq]
    rfl
  have hoperand := touching_operand h hhead
  rw [if_pos (blank_behind_head hfits hhead)] at hoperand
  unfold seam?
  simp only [h.not_isRigid, head?_readText h, hhead, if_false, hlabel, hoperand]
  by_cases hgap : f.gap = []
  · simp [hgap, Front.headSpan, hlead, Span.stop]
  · simp [hgap, Front.headSpan, hlead, Span.stop]

theorem seam?_of_word (hkind : kind ≠ .label) :
    seam? (readText conv continued text) =
      if body.head?.all isBlank then none else some f.text.length := by
  have hhead := (h.fits.head?_dot_iff hkind).1
  have hlabel : (readText conv continued text).label = none := by
    rw [h.readText_eq]
    simp [Front.reading, hkind]
  unfold seam?
  simp only [h.not_isRigid, head?_readText h, hhead, if_false, hlabel, touching_operand h hhead]
  rfl

theorem head_ne_nil_of_tears (htears : tears conv (readText conv continued text) = true) :
    f.head ≠ [] := by
  intro hhead
  simp [tears, seam?, head?_readText h, hhead] at htears

theorem drop_front : text.drop f.text.length = body ++ tail := by
  conv_lhs => rw [h.text_eq, List.append_assoc]
  exact List.drop_left

theorem drop_margin (hkind : kind = .label) (hgap : f.gap = []) :
    text.drop f.margin.length = f.head ++ (body ++ tail) := by
  subst hkind
  obtain ⟨hlead, _⟩ := margin_ne_nil_of_label h.fits
  conv_lhs => rw [h.text_eq, Front.text, hlead, hgap]
  simp

theorem tears_of_word (hkind : kind ≠ .label) :
    tears conv (readText conv continued text) =
      (!body.head?.all isBlank && rereads conv true (body ++ tail)) := by
  have hlabel : (readText conv continued text).label = none := by
    rw [h.readText_eq]
    simp [Front.reading, hkind]
  rw [tears, seam?_of_word h hkind, hlabel, Line.text_readText]
  cases body.head?.all isBlank <;> simp [drop_front h]

theorem exists_cons_of_tears (hkind : kind ≠ .label)
    (htears : tears conv (readText conv continued text) = true) :
    ∃ c more, body = c :: more ∧ isBlank c = false ∧
      rereads conv true (c :: (more ++ tail)) = true := by
  rw [tears_of_word h hkind, Bool.and_eq_true, Bool.not_eq_true'] at htears
  cases body with
  | nil => simp at htears
  | cons c more => exact ⟨c, more, rfl, by simpa using htears.1, htears.2⟩

theorem tears_of_label (hhead : f.head ≠ []) (hkind : kind = .label) :
    tears conv (readText conv continued text) =
      (f.gap.isEmpty && rereads conv false (f.head ++ (body ++ tail))) := by
  have hlabel : (readText conv continued text).label = some ⟨0, f.margin.length⟩ := by
    rw [h.readText_eq]
    simp [Front.reading, hkind]
  rw [tears, seam?_of_label h hhead hkind, hlabel, Line.text_readText]
  by_cases hgap : f.gap = []
  · simp [hgap, drop_margin h hkind hgap]
  · simp [hgap]

/-! ## The walk over the code -/

theorem walks_behind (hsharp : conv.Sharp) {front later : Text}
    (hcut : f.text ++ body = front ++ later)
    (hfront : ∀ c ∈ front, isPlain c = true ∨ isBlank c = true) :
    ∃ last, Walks conv {} (lastOf none front) later tail last ∧ (tail = [] ∨ last = {}) := by
  obtain ⟨last, hwalks, hscans⟩ := h.exists_walks hsharp
  rw [hcut] at hwalks
  obtain ⟨middle, hplain, hlater⟩ := hwalks.of_append
  obtain rfl := hplain.unique (Walks.plain hsharp hfront)
  exact ⟨last, hlater, h.opens.imp_right fun hmarks => hscans.state_of_opens hmarks⟩

/-- The operand of a directive or operation, walked over behind a blank. -/
theorem walks_operand (hsharp : conv.Sharp) (hkind : kind ≠ .label)
    (hfree : tears conv (readText conv continued text) = false) :
    ∃ last, Walks conv {} (some ' ') body.trimLeft tail last ∧ (tail = [] ∨ last = {}) := by
  have hfits := h.fits
  have hfront : ∀ c ∈ f.text, isPlain c = true ∨ isBlank c = true := by
    intro c hc
    simp only [Front.text, List.mem_append] at hc
    rcases hc with hc | hc | hc | hc
    · exact .inr (Text.allBlank_iff.mp (allBlank_lead hfits) c hc)
    · exact .inl (isPlain_of_mem_margin hfits hc)
    · exact .inr (Text.allBlank_iff.mp (allBlank_gap hfits) c hc)
    · exact .inl (isPlain_of_mem_head hfits hkind hc)
  obtain ⟨last, hwalks, hlast⟩ := walks_behind h hsharp rfl hfront
  refine ⟨last, ?_, hlast⟩
  by_cases hgap : body.takeWhile isBlank = []
  · -- The operand touches the head, or there is none.
    have htrim : body.trimLeft = body := by
      conv_rhs => rw [← Text.trimLeft_eq body, hgap]
      rfl
    rw [htrim]
    apply hwalks.congr_before
    rintro c more rfl
    have hc : isBlank c = false := by
      cases hc : isBlank c with
      | false => rfl
      | true => simp [hc] at hgap
    have hrereads : rereads conv true (c :: (more ++ tail)) = false := by
      rw [tears_of_word h hkind, List.head?_cons] at hfree
      simpa [hc] using hfree
    exact advance_of_rereads hsharp (fun hword => by cases hword) rfl hrereads
  · have hblank : allBlank (body.takeWhile isBlank) := Text.allBlank_takeWhile body
    rw [← Text.trimLeft_eq body] at hwalks
    obtain ⟨middle, hblanks, hoperand⟩ := hwalks.of_append
    obtain rfl := hblanks.unique (Walks.blanks hsharp hgap hblank)
    exact hoperand.neutral hsharp (Comment.lastOf_blank hgap hblank) rfl

/-- The head of a labelled line and its operand, walked over behind a blank. -/
theorem walks_head (hsharp : conv.Sharp) (hhead : f.head ≠ []) (hkind : kind = .label)
    (hfree : tears conv (readText conv continued text) = false) :
    ∃ last, Walks conv {} (some ' ')
        (f.head ++ if body = [] then [] else ' ' :: body.trimLeft) tail last ∧
      (tail = [] ∨ last = {}) := by
  have hfits := h.fits
  rw [tears_of_label h hhead hkind] at hfree
  subst hkind
  obtain ⟨hlead, _⟩ := margin_ne_nil_of_label hfits
  have hcut : f.text ++ body = (f.margin ++ f.gap) ++ (f.head ++ body) := by
    simp [Front.text, hlead]
  have hfront : ∀ c ∈ f.margin ++ f.gap, isPlain c = true ∨ isBlank c = true := by
    intro c hc
    rcases List.mem_append.mp hc with hc | hc
    · exact .inl (isPlain_of_mem_margin hfits hc)
    · exact .inr (Text.allBlank_iff.mp (allBlank_gap hfits) c hc)
  obtain ⟨last, hwalks, hlast⟩ := walks_behind h hsharp hcut hfront
  have hbehind : Walks conv {} (some ' ') (f.head ++ body) tail last := by
    by_cases hgap : f.gap = []
    · obtain ⟨run, hrun⟩ := colon_of_touching hfits hhead hgap
      have hcolon : lastOf none (f.margin ++ f.gap) = some ':' := by
        simp [hrun, hgap, Comment.lastOf_append]
      rw [hcolon] at hwalks
      apply hwalks.congr_before
      intro c more hmore
      have hrereads : rereads conv false (c :: (more ++ tail)) = false := by
        rw [← List.append_assoc, hmore] at hfree
        simpa [hgap] using hfree
      exact advance_of_rereads hsharp (fun _ => by decide) rfl hrereads
    · rw [Comment.lastOf_append] at hwalks
      exact hwalks.neutral hsharp (Comment.lastOf_blank hgap (allBlank_gap hfits)) rfl
  refine ⟨last, ?_, hlast⟩
  by_cases hbody : body = []
  · simpa [hbody] using hbehind
  · have hgap : body.takeWhile isBlank ≠ [] := by
      obtain ⟨c, more, rfl⟩ := List.exists_cons_of_ne_nil hbody
      have hc : isBlank c = true := blank_behind_head hfits hhead
      simp [hc]
    rw [if_neg hbody]
    rw [← Text.trimLeft_eq body] at hbehind
    exact hbehind.regap hsharp hgap (Text.allBlank_takeWhile body) (List.cons_ne_nil ' ' []) rfl

omit h in
theorem trimRight_loose (hfits : Fits kind f rest) (hhead : f.head ≠ []) (column : Int)
    (body : Text) :
    Text.trimRight (f.margin.padRight column ++ (f.head ++ ' ' :: body.trimLeft)) =
      setCode f column body := by
  have hbare := trimRight_setCode hfits column []
  simp only [setCode, hhead, if_false, Text.allBlank_nil, if_true, List.append_nil] at hbare ⊢
  rw [← List.append_assoc, Text.trimRight_append, hbare]
  cases hbody : allBlank body with
  | true => simp [Text.allBlank_trimLeft, hbody]
  | false =>
      have hoperand := Text.trimRight_append [' '] body.trimLeft
      rw [List.singleton_append, Text.allBlank_trimLeft, hbody] at hoperand
      simp only [Text.allBlank_cons, Text.allBlank_trimLeft, hbody, Bool.and_false, hoperand]
      simp [Text.trim]

omit h in
theorem plain_padRight (hfits : Fits kind f rest) (column : Int) {c : Char}
    (hc : c ∈ f.margin.padRight column) : isPlain c = true ∨ isBlank c = true := by
  rcases List.mem_append.mp hc with hc | hc
  · exact .inl (isPlain_of_mem_margin hfits hc)
  · exact .inr (Text.allBlank_iff.mp (Text.allBlank_spaces _) c hc)

omit h in
theorem plain_word (hfits : Fits kind f rest) (hkind : kind ≠ .label) (column : Int) {c : Char}
    (hc : c ∈ f.margin.padRight column ++ (f.head ++ [' '])) :
    isPlain c = true ∨ isBlank c = true := by
  simp only [List.mem_append, List.mem_singleton] at hc
  rcases hc with hc | hc | rfl
  · exact plain_padRight hfits column hc
  · exact .inl (isPlain_of_mem_head hfits hkind hc)
  · exact .inr rfl

omit h in
theorem lastOf_padRight {column : Int} (hcolumn : (f.margin.length : Int) < column) :
    (lastOf none (f.margin.padRight column)).all isBlank = true := by
  have hgap : Text.spaces (column - f.margin.length) ≠ [] := by
    rw [Ne, ← List.length_eq_zero_iff, Text.length_spaces]
    omega
  rw [Text.padRight, Comment.lastOf_append]
  exact Comment.lastOf_blank hgap (Text.allBlank_spaces _)

omit h in
theorem lastOf_word (f : Front) (column : Int) :
    lastOf none (f.margin.padRight column ++ (f.head ++ [' '])) = some ' ' := by
  simp [Comment.lastOf_append]

/-- The code that is laid out, walked over: up to blanks at its end it is what it was. -/
theorem exists_loose (hsharp : conv.Sharp)
    (hfree : tears conv (readText conv continued text) = false) {column : Int}
    (hcolumn : f.margin ≠ [] → (f.margin.length : Int) < column) :
    ∃ loose last, Text.trimRight loose = setCode f column body ∧
      Walks conv {} none loose tail last ∧ (tail = [] ∨ last = {}) := by
  have hfits := h.fits
  by_cases hhead : f.head = []
  · refine ⟨f.margin, {}, ?_, Walks.plain hsharp ?_, .inr rfl⟩
    · rw [setCode, if_pos hhead]
      exact Text.trimRight_of_ink fun c hc => isBlank_of_mem_margin hfits hc
    · exact fun c hc => .inl (isPlain_of_mem_margin hfits hc)
  · by_cases hkind : kind = .label
    · obtain ⟨last, hwalks, hlast⟩ := walks_head h hsharp hhead hkind hfree
      have hne : f.margin ≠ [] := by
        subst hkind
        exact (margin_ne_nil_of_label hfits).2
      have hfront := fun c hc => plain_padRight (c := c) hfits column hc
      refine ⟨_, last, ?_, (Walks.plain hsharp hfront).append
        (hwalks.neutral hsharp rfl (lastOf_padRight (hcolumn hne))), hlast⟩
      by_cases hbody : body = []
      · have hbare := trimRight_setCode hfits column []
        simpa [hbody, setCode, hhead] using hbare
      · rw [if_neg hbody]
        exact trimRight_loose hfits hhead column body
    · obtain ⟨last, hwalks, hlast⟩ := walks_operand h hsharp hkind hfree
      have hfront := fun c hc => plain_word (c := c) hfits hkind column hc
      rw [← lastOf_word f column] at hwalks
      refine ⟨_, last, ?_, (Walks.plain hsharp hfront).append hwalks, hlast⟩
      rw [← trimRight_loose hfits hhead column body]
      simp

/-! ## The scan of the line that is laid out -/

omit h in
theorem exists_padToComment {code : Text} (hne : code ≠ []) (column : Int) :
    ∃ pad, pad ≠ [] ∧ allBlank pad = true ∧ padToComment column code = code ++ pad := by
  unfold padToComment
  split
  · next hlt =>
    refine ⟨Text.spaces (column - code.length), ?_, Text.allBlank_spaces _, rfl⟩
    rw [Ne, ← List.length_eq_zero_iff, Text.length_spaces]
    omega
  · exact ⟨[' '], by simp, rfl, by simp [hne]⟩

/-- What stands before the comment in a line that is laid out. -/
def setFront (f : Front) (column commentColumn : Int) (body tail : Text) : Text :=
  if tail = [] then setCode f column body else padToComment commentColumn (setCode f column body)

omit h in
theorem exists_setFront (hfits : Fits kind f rest) (column commentColumn : Int)
    (body tail : Text) :
    ∃ pad, allBlank pad = true ∧ (tail ≠ [] → pad ≠ []) ∧
      setFront f column commentColumn body tail = setCode f column body ++ pad := by
  unfold setFront
  split
  · next htail => exact ⟨[], rfl, fun hne => absurd htail hne, by simp⟩
  · obtain ⟨pad, hne, hpad, hfront⟩ :=
      exists_padToComment (setCode_ne_nil hfits column body) commentColumn
    exact ⟨pad, hpad, fun _ => hne, hfront⟩

omit h in
/-- An operand that touched its head, behind the blank that the layout puts before it. -/
theorem exists_setFront_of_word (hfits : Fits kind f rest) (hhead : f.head ≠ [])
    (column commentColumn : Int) {c : Char} (hc : isBlank c = false) (more tail : Text) :
    ∃ pad, allBlank pad = true ∧ (tail ≠ [] → pad ≠ []) ∧
      setFront f column commentColumn (c :: more) tail ++ tail.trimRight =
        (f.margin.padRight column ++ (f.head ++ [' '])) ++
          c :: (more.trimRight ++ (pad ++ tail.trimRight)) := by
  obtain ⟨pad, hpad, hne, hfront⟩ := exists_setFront hfits column commentColumn (c :: more) tail
  refine ⟨pad, hpad, hne, ?_⟩
  rw [hfront]
  simp [setCode, hhead, hc, Text.trim_cons_of_ink hc]

omit h in
/-- A head that touched its label, at its own tab stop. -/
theorem exists_setFront_of_label (hfits : Fits kind f rest) (column commentColumn : Int) {c : Char}
    {more : Text} (hhead : f.head = c :: more) (body tail : Text) :
    ∃ later, setFront f column commentColumn body tail ++ tail.trimRight =
      f.margin.padRight column ++ c :: (later ++ tail.trimRight) := by
  obtain ⟨pad, _, _, hfront⟩ := exists_setFront hfits column commentColumn body tail
  refine ⟨more ++ ((if allBlank body then [] else ' ' :: body.trim) ++ pad), ?_⟩
  rw [hfront]
  simp [setCode, hhead]

theorem line_eq_setFront (hsharp : conv.Sharp) (stops : TabStops) (column commentColumn : Int) :
    line conv stops column commentColumn (readText conv continued text) =
      setFront f (if f.margin = [] then column else stops.nextStop f.margin.length)
        commentColumn body tail ++ tail.trimRight := by
  rw [line_eq h hsharp, setFront]
  by_cases htail : tail = []
  · subst htail
    exact (List.append_nil _).symm
  · simp [htail]

theorem scans_line (hsharp : conv.Sharp)
    (hfree : tears conv (readText conv continued text) = false) {column : Int}
    (hcolumn : f.margin ≠ [] → (f.margin.length : Int) < column) (commentColumn : Int) :
    ∃ marks mark, Scans conv (.code {} none)
        (setFront f column commentColumn body tail ++ tail.trimRight)
        (List.replicate (setFront f column commentColumn body tail).length false ++ marks)
        (scan conv continued text).leftOpen ∧
      tailMarks = marks ++ List.replicate (tail.takeTail isBlank).length mark := by
  obtain ⟨loose, last, hloose, hwalks, hlast⟩ := exists_loose h hsharp hfree hcolumn
  obtain ⟨_, _, hscans⟩ := h.exists_walks hsharp
  by_cases htail : tail = []
  · subst htail
    obtain ⟨last', hcode⟩ := hwalks.trimRight hsharp
    rw [hloose] at hcode
    generalize (scan conv continued text).leftOpen = leftOpen at hscans ⊢
    cases hscans
    rw [setFront, if_pos rfl]
    exact ⟨[], false, hcode.scans .done, rfl⟩
  · obtain rfl := hlast.resolve_left htail
    obtain ⟨pad, hne, hpad, hfront⟩ :=
      exists_padToComment (setCode_ne_nil h.fits column body) commentColumn
    have hcode := hwalks.close hsharp hne hpad (Comment.quote_mem_trimRight tail).symm
    rw [hloose, ← hfront] at hcode
    have hbefore : (lastOf none (padToComment commentColumn (setCode f column body))).all
        isBlank = true := by
      rw [hfront, Comment.lastOf_append]
      exact Comment.lastOf_blank hne hpad
    have hopen := hscans.reopen hbefore h.opens
    rw [← Text.trimRight_eq tail] at hopen
    obtain ⟨marks, mark, hmarks, htailMarks⟩ :=
      hopen.of_trail hsharp (Text.allBlank_takeTail tail)
    rw [setFront, if_neg htail]
    exact ⟨marks, mark, hcode.scans hmarks, htailMarks⟩

end cut

end Layout
end AsmColumns
