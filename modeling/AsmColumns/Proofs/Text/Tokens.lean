import AsmColumns.Proofs.Text.Ink

/-!
# The tokens of a text

The tokens of a text are its longest runs of ink.  A blank between two texts keeps their tokens
apart; without one, the last token of the first text and the first token of the second become one.
-/

namespace AsmColumns
namespace Text

def tokens (text : Text) : List Text :=
  (text.splitOnP isBlank).filter fun token => !token.isEmpty

/-- Whether ink meets ink where the second text follows the first. -/
def touch (s t : Text) : Bool :=
  s.getLast?.any (fun c => !isBlank c) && t.head?.any fun c => !isBlank c

/-- The pieces of a text from `start` on, cut at ascending offsets. -/
def cutFrom (start : Nat) : List Nat → Text → List Text
  | [], text => [text.drop start]
  | stop :: later, text => text.slice start stop :: cutFrom stop later text

def cutAt : List Nat → Text → List Text :=
  cutFrom 0

@[simp] theorem tokens_nil : tokens [] = [] := rfl

theorem tokens_append_blank {c : Char} (hc : isBlank c = true) (s t : Text) :
    tokens (s ++ c :: t) = tokens s ++ tokens t := by
  rw [tokens, List.splitOnP_append_cons s t hc, List.filter_append]
  rfl

theorem tokens_of_ink {word : Text} (hne : word ≠ []) (hink : ∀ c ∈ word, isBlank c = false) :
    tokens word = [word] := by
  rw [tokens, List.splitOnP_eq_singleton hink]
  simp [hne]

theorem tokens_lead {gap : Text} (hgap : allBlank gap) (t : Text) :
    tokens (gap ++ t) = tokens t := by
  induction gap with
  | nil => rfl
  | cons c gap ih =>
      rw [allBlank_cons, Bool.and_eq_true] at hgap
      have hcons := tokens_append_blank hgap.1 [] (gap ++ t)
      rw [tokens_nil, List.nil_append, List.nil_append, ih hgap.2] at hcons
      exact hcons

/-- Blanks keep the tokens on their two sides apart. -/
theorem tokens_append_gap {gap : Text} (hne : gap ≠ []) (hgap : allBlank gap) (s t : Text) :
    tokens (s ++ (gap ++ t)) = tokens s ++ tokens t := by
  obtain ⟨c, gap, rfl⟩ := List.exists_cons_of_ne_nil hne
  rw [allBlank_cons, Bool.and_eq_true] at hgap
  rw [List.cons_append, tokens_append_blank hgap.1, tokens_lead hgap.2]

theorem tokens_of_allBlank {gap : Text} (hgap : allBlank gap) : tokens gap = [] := by
  have hlead := tokens_lead hgap []
  rwa [List.append_nil] at hlead

theorem tokens_tail {gap : Text} (hgap : allBlank gap) (s : Text) :
    tokens (s ++ gap) = tokens s := by
  by_cases hne : gap = []
  · rw [hne, List.append_nil]
  · have hright := tokens_append_gap hne hgap s []
    rwa [List.append_nil, tokens_nil, List.append_nil] at hright

@[simp] theorem tokens_trimRight (t : Text) : tokens (trimRight t) = tokens t := by
  conv_rhs => rw [← trimRight_eq t]
  rw [tokens_tail (allBlank_takeTail t)]

@[simp] theorem tokens_trim (t : Text) : tokens (trim t) = tokens t := by
  rw [trim, tokens_trimRight]
  conv_rhs => rw [← trimLeft_eq t]
  rw [tokens_lead (allBlank_takeWhile t)]

/-! ## Two texts that touch -/

theorem touch_of_last {s : Text} (h : s.getLast?.all isBlank = true) (t : Text) :
    touch s t = false := by
  cases hlast : s.getLast? with
  | none => simp [touch, hlast]
  | some c =>
      rw [hlast] at h
      have hc : isBlank c = true := h
      simp [touch, hlast, hc]

theorem touch_of_head {t : Text} (h : t.head?.all isBlank = true) (s : Text) :
    touch s t = false := by
  cases hhead : t.head? with
  | none => simp [touch, hhead]
  | some c =>
      rw [hhead] at h
      have hc : isBlank c = true := h
      simp [touch, hhead, hc]

theorem touch_append {m : Text} (hne : m ≠ []) (s t : Text) : touch (s ++ m) t = touch m t := by
  rw [touch, touch, List.getLast?_append_of_ne_nil s hne]

theorem tokens_append_of_not_touch {s t : Text} (h : touch s t = false) :
    tokens (s ++ t) = tokens s ++ tokens t := by
  rw [touch, Bool.and_eq_false_iff] at h
  rcases h with hlast | hhead
  · rcases List.eq_nil_or_concat' s with rfl | ⟨front, c, rfl⟩
    · rfl
    · have hc : isBlank c = true := by simpa using hlast
      have hgap : allBlank [c] = true := by simp [hc]
      rw [tokens_tail hgap, List.append_assoc]
      exact tokens_append_blank hc front t
  · cases t with
    | nil => simp
    | cons c rest =>
        have hc : isBlank c = true := by simpa using hhead
        have hgap : allBlank [c] = true := by simp [hc]
        have hlead : tokens (c :: rest) = tokens rest := tokens_lead hgap rest
        rw [tokens_append_blank hc, hlead]

theorem exists_first_word {t : Text} (h : t.head?.any (fun c => !isBlank c) = true) :
    ∃ word rest, t = word ++ rest ∧ word ≠ [] ∧ (∀ c ∈ word, isBlank c = false) ∧
      rest.head?.all isBlank = true := by
  refine ⟨t.takeWhile fun c => !isBlank c, t.dropWhile fun c => !isBlank c,
    List.takeWhile_append_dropWhile.symm, ?_, ?_, ?_⟩
  · cases t with
    | nil => simp at h
    | cons c rest =>
        have hc : (!isBlank c) = true := h
        simp [hc]
  · intro c hc
    simpa using List.mem_takeWhile_imp hc
  · cases hhead : (t.dropWhile fun c => !isBlank c).head? with
    | none => rfl
    | some c => simpa [hhead] using List.head?_dropWhile_not (fun c => !isBlank c) t

theorem exists_last_word {s : Text} (h : s.getLast?.any (fun c => !isBlank c) = true) :
    ∃ front word, s = front ++ word ∧ word ≠ [] ∧ (∀ c ∈ word, isBlank c = false) ∧
      front.getLast?.all isBlank = true := by
  rw [← List.head?_reverse] at h
  obtain ⟨word, rest, hs, hne, hink, hrest⟩ := exists_first_word h
  refine ⟨rest.reverse, word.reverse, ?_, ?_, ?_, ?_⟩
  · rw [← List.reverse_append, ← hs, List.reverse_reverse]
  · simpa using hne
  · intro c hc
    exact hink c (List.mem_reverse.mp hc)
  · rw [List.getLast?_reverse]
    exact hrest

theorem tokens_first_word {word rest : Text} (hne : word ≠ [])
    (hink : ∀ c ∈ word, isBlank c = false) (hrest : rest.head?.all isBlank = true) :
    tokens (word ++ rest) = word :: tokens rest := by
  rw [tokens_append_of_not_touch (touch_of_head hrest word), tokens_of_ink hne hink]
  rfl

/-- Two texts that touch have one token less than they have apart. -/
theorem length_tokens_append (s t : Text) :
    (tokens (s ++ t)).length + (touch s t).toNat = (tokens s).length + (tokens t).length := by
  cases htouch : touch s t with
  | false => simp [tokens_append_of_not_touch htouch]
  | true =>
      rw [touch, Bool.and_eq_true] at htouch
      obtain ⟨front, last, rfl, hlast, hlastInk, hfront⟩ := exists_last_word htouch.1
      obtain ⟨first, rest, rfl, hfirst, hfirstInk, hrest⟩ := exists_first_word htouch.2
      have hink : ∀ c ∈ last ++ first, isBlank c = false := by
        intro c hc
        exact (List.mem_append.mp hc).elim (hlastInk c) (hfirstInk c)
      have hne : last ++ first ≠ [] := by simp [hlast]
      have hjoined : tokens ((front ++ last) ++ (first ++ rest)) =
          tokens front ++ (last ++ first) :: tokens rest := by
        rw [List.append_assoc, ← List.append_assoc last,
          tokens_append_of_not_touch (touch_of_last hfront _), tokens_first_word hne hink hrest]
      have hleft : tokens (front ++ last) = tokens front ++ [last] := by
        rw [tokens_append_of_not_touch (touch_of_last hfront _), tokens_of_ink hlast hlastInk]
      rw [hjoined, hleft, tokens_first_word hfirst hfirstInk hrest]
      simp only [List.length_append, List.length_cons, List.length_nil, Bool.toNat_true]
      omega

/-- A text keeps its tokens when it is cut at two offsets if and only if ink does not meet ink at
either of them. -/
theorem tokens_append_append_iff (s m t : Text) :
    tokens s ++ (tokens m ++ tokens t) = tokens (s ++ (m ++ t)) ↔
      touch s (m ++ t) = false ∧ touch (s ++ m) t = false := by
  constructor
  · intro h
    have hlength := congrArg List.length h
    have houter := length_tokens_append s (m ++ t)
    have hinner := length_tokens_append m t
    rw [List.length_append, List.length_append] at hlength
    have hs : touch s (m ++ t) = false := by
      rw [← Bool.toNat_eq_zero]
      omega
    have hm : touch m t = false := by
      rw [← Bool.toNat_eq_zero]
      omega
    refine ⟨hs, ?_⟩
    cases m with
    | nil => simpa using hs
    | cons c m => rw [touch_append (List.cons_ne_nil c m), hm]
  · rintro ⟨hs, ht⟩
    have hm : touch m t = false := by
      cases m with
      | nil => rfl
      | cons c m => rwa [touch_append (List.cons_ne_nil c m)] at ht
    rw [tokens_append_of_not_touch hs, tokens_append_of_not_touch hm]

end Text
end AsmColumns
