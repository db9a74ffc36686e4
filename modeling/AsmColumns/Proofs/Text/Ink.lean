import AsmColumns.Text.Basic
import Mathlib.Data.List.DropRight
import Mathlib.Data.List.TakeWhile

/-!
# The ink of a text

The ink of a text is the list of its characters that are not blank.  Trimming, padding and moving
a text change its blanks and keep its ink, so the ink is what an editor that only moves things
must leave alone.

The file also collects what the runs of a class of characters look like at the two ends of a text:
a run followed by a text that stops it is found again by the functions that look for the longest
run.
-/

namespace AsmColumns
namespace Text

def ink (text : Text) : Text :=
  text.filter fun c => !isBlank c

@[simp] theorem ink_nil : ink [] = [] := rfl

@[simp] theorem ink_append (s t : Text) : ink (s ++ t) = ink s ++ ink t :=
  List.filter_append ..

theorem ink_cons (c : Char) (t : Text) :
    ink (c :: t) = if isBlank c then ink t else c :: ink t := by
  cases h : isBlank c <;> simp [ink, h]

@[simp] theorem ink_cons_of_blank {c : Char} (h : isBlank c = true) (t : Text) :
    ink (c :: t) = ink t := by
  simp [ink_cons, h]

@[simp] theorem ink_cons_of_not_blank {c : Char} (h : isBlank c = false) (t : Text) :
    ink (c :: t) = c :: ink t := by
  simp [ink_cons, h]

theorem allBlank_iff {t : Text} : t.allBlank ↔ ∀ c ∈ t, isBlank c = true := by
  simp [allBlank]

@[simp] theorem allBlank_nil : allBlank [] = true := rfl

@[simp] theorem allBlank_append (s t : Text) :
    allBlank (s ++ t) = (allBlank s && allBlank t) := by
  simp [allBlank]

@[simp] theorem allBlank_cons (c : Char) (t : Text) :
    allBlank (c :: t) = (isBlank c && allBlank t) := by
  simp [allBlank]

theorem ink_eq_nil_iff {t : Text} : ink t = [] ↔ t.allBlank := by
  simp [ink, allBlank_iff]

@[simp] theorem ink_of_allBlank {t : Text} (h : t.allBlank) : ink t = [] :=
  ink_eq_nil_iff.mpr h

@[simp] theorem isBlank_space : isBlank ' ' = true := by decide

@[simp] theorem isBlank_newline : isBlank '\n' = true := by decide

theorem isBlank_of_isPad {c : Char} (h : isPad c = true) : isBlank c = true := by
  simp only [isPad, Bool.or_eq_true, beq_iff_eq] at h
  rcases h with rfl | rfl <;> decide

@[simp] theorem length_spaces (n : Int) : (spaces n).length = n.toNat := by
  simp [spaces]

@[simp] theorem allBlank_spaces (n : Int) : allBlank (spaces n) = true := by
  simp [allBlank, spaces]

@[simp] theorem spaces_of_nonpos {n : Int} (h : n ≤ 0) : spaces n = [] := by
  simp [spaces, Int.toNat_of_nonpos h]

theorem newline_notMem_spaces (n : Int) : '\n' ∉ spaces n := by
  simp [spaces, List.mem_replicate]

/-- The first characters of a text that starts with enough spaces. -/
theorem take_eq_spaces {t : Text} {n : Nat} (h : n ≤ (t.takeWhile (· == ' ')).length) :
    t.take n = spaces n := by
  have hfront : t.take n = (t.takeWhile (· == ' ')).take n := by
    conv_lhs => rw [← List.takeWhile_append_dropWhile (p := (· == ' ')) (l := t)]
    exact List.take_append_of_le_length h
  rw [hfront, spaces, Int.toNat_natCast, List.eq_replicate_iff]
  refine ⟨by rw [List.length_take, Nat.min_eq_left h], ?_⟩
  intro c hc
  simpa using List.mem_takeWhile_imp (List.mem_of_mem_take hc)

/-! ## Trimming -/

theorem dropTail_eq (p : Char → Bool) (t : Text) : dropTail p t = t.rdropWhile p := rfl

theorem dropTail_append_takeTail (p : Char → Bool) (t : Text) :
    dropTail p t ++ takeTail p t = t :=
  List.rdropWhile_append_rtakeWhile

theorem of_mem_takeTail {p : Char → Bool} {t : Text} {c : Char} (h : c ∈ takeTail p t) :
    p c = true :=
  List.mem_rtakeWhile_imp h

theorem allBlank_takeWhile (t : Text) : allBlank (t.takeWhile isBlank) :=
  List.all_takeWhile

theorem allBlank_takeWhile_isPad (t : Text) : allBlank (t.takeWhile isPad) := by
  rw [allBlank_iff]
  intro c hc
  exact isBlank_of_isPad (List.mem_takeWhile_imp hc)

theorem allBlank_takeTail (t : Text) : allBlank (takeTail isBlank t) :=
  allBlank_iff.mpr fun _ h => of_mem_takeTail h

theorem head?_blank_of_allBlank {gap : Text} (hne : gap ≠ []) (hgap : allBlank gap) (rest : Text) :
    (gap ++ rest).head?.all isBlank = true := by
  obtain ⟨c, gap, rfl⟩ := List.exists_cons_of_ne_nil hne
  exact allBlank_iff.mp hgap c List.mem_cons_self

theorem trimLeft_eq (t : Text) : t.takeWhile isBlank ++ trimLeft t = t :=
  List.takeWhile_append_dropWhile

theorem trimRight_eq (t : Text) : trimRight t ++ takeTail isBlank t = t :=
  dropTail_append_takeTail isBlank t

@[simp] theorem ink_trimLeft (t : Text) : ink (trimLeft t) = ink t := by
  conv_rhs => rw [← trimLeft_eq t, ink_append, ink_of_allBlank (allBlank_takeWhile t)]
  rfl

@[simp] theorem ink_trimRight (t : Text) : ink (trimRight t) = ink t := by
  conv_rhs => rw [← trimRight_eq t, ink_append, ink_of_allBlank (allBlank_takeTail t)]
  simp

@[simp] theorem ink_trim (t : Text) : ink (trim t) = ink t := by
  rw [trim, ink_trimRight, ink_trimLeft]

theorem trimRight_append (s t : Text) :
    trimRight (s ++ t) = if allBlank t then trimRight s else s ++ trimRight t := by
  have hnil : (t.reverse.dropWhile isBlank).isEmpty = true ↔ allBlank t = true := by
    simp [allBlank_iff]
  rw [trimRight, dropTail, List.reverse_append, List.dropWhile_append]
  simp only [hnil]
  split
  · rfl
  · rw [List.reverse_append, List.reverse_reverse]
    rfl

theorem trimRight_of_allBlank {t : Text} (h : allBlank t) : trimRight t = [] := by
  have happend := trimRight_append [] t
  rwa [if_pos h] at happend

theorem allBlank_trimLeft (t : Text) : allBlank (trimLeft t) = allBlank t := by
  conv_rhs => rw [← trimLeft_eq t, allBlank_append, allBlank_takeWhile, Bool.true_and]

theorem trimRight_eq_lead {t : Text} (h : allBlank t = false) :
    trimRight t = t.takeWhile isBlank ++ trim t := by
  have hink : allBlank (trimLeft t) ≠ true := by
    rw [allBlank_trimLeft, h]
    exact Bool.false_ne_true
  conv_lhs => rw [← trimLeft_eq t, trimRight_append, if_neg hink]
  rfl

@[simp] theorem allBlank_trimRight (t : Text) : allBlank (trimRight t) = allBlank t := by
  conv_rhs => rw [← trimRight_eq t, allBlank_append, allBlank_takeTail, Bool.and_true]

@[simp] theorem allBlank_trim (t : Text) : allBlank (trim t) = allBlank t := by
  rw [trim, allBlank_trimRight, allBlank_trimLeft]

theorem trimRight_ne_nil {t : Text} (h : allBlank t = false) : trimRight t ≠ [] := by
  intro hnil
  have hink := ink_trimRight t
  rw [hnil, ink_nil, eq_comm, ink_eq_nil_iff] at hink
  simp [h] at hink

theorem length_trimRight_le (t : Text) : (trimRight t).length ≤ t.length := by
  have hlength := congrArg List.length (trimRight_eq t)
  rw [List.length_append] at hlength
  omega

theorem length_trimRight_append_le_iff {s t : Text} :
    (trimRight (s ++ t)).length ≤ s.length ↔ allBlank t = true := by
  rw [trimRight_append]
  cases hblank : allBlank t with
  | true => simpa using length_trimRight_le s
  | false =>
      have hpos := List.length_pos_iff.mpr (trimRight_ne_nil hblank)
      simp only [Bool.false_eq_true, if_false, List.length_append, iff_false]
      omega

theorem trim_append_of_allBlank {s t : Text} (h : allBlank t) : trim (s ++ t) = trim s := by
  rw [trim, trimLeft, List.dropWhile_append]
  split
  · rename_i hnil
    have hs : trimLeft s = [] := List.isEmpty_iff.mp hnil
    have ht : t.dropWhile isBlank = [] := List.dropWhile_eq_nil_iff.mpr (allBlank_iff.mp h)
    rw [ht, trim, hs]
  · rw [trimRight_append, if_pos h]
    rfl

theorem takeWhile_append_of_ink {s : Text} (h : allBlank s = false) (t : Text) :
    (s ++ t).takeWhile isBlank = s.takeWhile isBlank := by
  rw [List.takeWhile_append]
  split
  · rename_i hlength
    have hall : s.takeWhile isBlank = s :=
      (List.takeWhile_prefix isBlank).eq_of_length hlength
    rw [← hall, allBlank_takeWhile] at h
    cases h
  · rfl

theorem trim_eq_nil_iff {t : Text} : trim t = [] ↔ allBlank t := by
  constructor
  · intro h
    rw [← ink_eq_nil_iff, ← ink_trim, h, ink_nil]
  · intro h
    have hleft : trimLeft t = [] := List.dropWhile_eq_nil_iff.mpr (allBlank_iff.mp h)
    rw [trim, hleft]
    rfl

theorem trimRight_of_ink {t : Text} (h : ∀ c ∈ t, isBlank c = false) : trimRight t = t := by
  rw [trimRight, dropTail_eq, List.rdropWhile_eq_self_iff]
  intro hne
  simp [h _ (List.getLast_mem hne)]

theorem trimRight_append_of_ink {t : Text} (hne : t ≠ []) (h : ∀ c ∈ t, isBlank c = false)
    (s : Text) : trimRight (s ++ t) = s ++ t := by
  obtain ⟨c, t, rfl⟩ := List.exists_cons_of_ne_nil hne
  rw [trimRight_append, trimRight_of_ink h]
  simp [h c List.mem_cons_self]

theorem trimLeft_of_stops {t : Text} (h : ∀ c ∈ t.head?, isBlank c = false) : trimLeft t = t := by
  cases t with
  | nil => rfl
  | cons c t => rw [trimLeft, List.dropWhile_cons_of_neg (by simp [h c rfl])]

theorem trim_of_ink {t : Text} (h : ∀ c ∈ t, isBlank c = false) : trim t = t := by
  rw [trim, trimLeft_of_stops fun c hc => h c (List.mem_of_mem_head? hc), trimRight_of_ink h]

theorem trim_lead {s : Text} (h : allBlank s) (t : Text) : trim (s ++ t) = trim t := by
  rw [trim, trimLeft, List.dropWhile_append_of_pos (allBlank_iff.mp h)]
  rfl

@[simp] theorem trimRight_trimRight (t : Text) : trimRight (trimRight t) = trimRight t :=
  List.rdropWhile_idempotent isBlank t

theorem trimRight_cons_of_ink {c : Char} (hc : isBlank c = false) (t : Text) :
    trimRight (c :: t) = c :: trimRight t := by
  have happend := trimRight_append [c] t
  have hone : trimRight [c] = [c] := trimRight_of_ink (by simpa using hc)
  rw [List.singleton_append, hone] at happend
  rw [happend]
  split
  · next ht => rw [trimRight_of_allBlank ht]
  · rfl

theorem trim_cons_of_ink {c : Char} (hc : isBlank c = false) (t : Text) :
    trim (c :: t) = c :: trimRight t := by
  rw [trim, trimLeft_of_stops (by simpa using hc), trimRight_cons_of_ink hc]

theorem trimRight_trim (t : Text) : trimRight (trim t) = trim t :=
  trimRight_trimRight _

theorem trim_trimRight (t : Text) : trim (trimRight t) = trim t := by
  conv_rhs => rw [← trimRight_eq t]
  rw [trim_append_of_allBlank (allBlank_takeTail t)]

theorem trimLeft_eq_trim (t : Text) : trimLeft t = trim t ++ takeTail isBlank (trimLeft t) :=
  (trimRight_eq (trimLeft t)).symm

/-- A text is its blanks at both ends and what trimming leaves. -/
theorem lead_trim_tail (t : Text) :
    t.takeWhile isBlank ++ (trim t ++ takeTail isBlank (trimLeft t)) = t := by
  rw [trim, trimRight_eq, trimLeft_eq]

@[simp] theorem trim_trim (t : Text) : trim (trim t) = trim t := by
  conv_rhs => rw [← lead_trim_tail t, trim_lead (allBlank_takeWhile t),
    trim_append_of_allBlank (allBlank_takeTail _)]

theorem exists_trim_eq_cons {t : Text} (h : allBlank t = false) :
    ∃ c more, trim t = c :: more ∧ isBlank c = false := by
  have hne : trim t ≠ [] := fun hnil => by simp [trim_eq_nil_iff.mp hnil] at h
  obtain ⟨c, more, htrim⟩ := List.exists_cons_of_ne_nil hne
  refine ⟨c, more, htrim, ?_⟩
  have hleft := trimLeft_eq_trim t
  rw [htrim, List.cons_append] at hleft
  have hhead := List.head?_dropWhile_not isBlank t
  rw [← trimLeft, hleft] at hhead
  simpa using hhead

theorem trimLeft_lead {lead : Text} (hlead : allBlank lead) (t : Text) :
    trimLeft (lead ++ t) = trimLeft t :=
  List.dropWhile_append_of_pos (allBlank_iff.mp hlead)

theorem trimLeft_trim (t : Text) : trimLeft (trim t) = trim t := by
  cases hblank : allBlank t with
  | true =>
      rw [trim_eq_nil_iff.mpr hblank]
      rfl
  | false =>
      obtain ⟨c, more, htrim, hc⟩ := exists_trim_eq_cons hblank
      rw [htrim]
      exact trimLeft_of_stops (by simpa using hc)

theorem exists_trim_eq_concat {t : Text} (h : allBlank t = false) :
    ∃ more c, trim t = more ++ [c] ∧ isBlank c = false := by
  have hne : trim t ≠ [] := fun hnil => by simp [trim_eq_nil_iff.mp hnil] at h
  refine ⟨_, _, (List.dropLast_concat_getLast hne).symm, ?_⟩
  exact Bool.eq_false_iff.mpr (List.rdropWhile_last_not isBlank (trimLeft t) hne)

/-- Blanks before a text are blanks before its first ink. -/
theorem exists_of_lead {lead front core rest : Text} {c : Char} (hfront : allBlank front)
    (hc : isBlank c = false) (h : lead ++ c :: rest = front ++ core) :
    ∃ lead', lead = front ++ lead' ∧ core = lead' ++ c :: rest := by
  rcases List.append_eq_append_iff.mp h with ⟨gap, hlead, hgap⟩ | ⟨lead', hlead, hcore⟩
  · cases gap with
    | nil => exact ⟨[], by simpa using hlead.symm, by simpa using hgap.symm⟩
    | cons d gap =>
        obtain ⟨rfl, _⟩ := List.cons.inj hgap
        simp [hlead, hc] at hfront
  · exact ⟨lead', hlead, hcore⟩

/-- Blanks behind a text are blanks behind its last ink. -/
theorem exists_of_tail {s core rest back : Text} (hback : allBlank back) (hs : trimRight s = s)
    (h : s ++ rest = core ++ back) : ∃ rest', rest = rest' ++ back ∧ core = s ++ rest' := by
  rcases List.append_eq_append_iff.mp h with ⟨rest', hcore, hrest⟩ | ⟨gap, hcut, hgap⟩
  · exact ⟨rest', hrest, hcore⟩
  · have hblank : allBlank gap = true := by
      rw [hgap, allBlank_append, Bool.and_eq_true] at hback
      exact hback.1
    have hle := (length_trimRight_append_le_iff (s := core)).mpr hblank
    rw [← hcut, hs, hcut, List.length_append] at hle
    obtain rfl : gap = [] := List.eq_nil_of_length_eq_zero (by omega)
    exact ⟨[], by simpa using hgap.symm, by simpa using hcut.symm⟩

@[simp] theorem ink_padRight (column : Int) (t : Text) : ink (padRight column t) = ink t := by
  simp [padRight]

/-! ## Runs and what stops them -/

/-- The text does not start with a character of the class. -/
def Stops (inClass : Char → Bool) (text : Text) : Prop :=
  ∀ c ∈ text.head?, inClass c = false

section Stops

variable {p : Char → Bool}

@[simp] theorem stops_nil (p : Char → Bool) : Stops p [] := by
  simp [Stops]

@[simp] theorem stops_cons {c : Char} {t : Text} : Stops p (c :: t) ↔ p c = false := by
  simp [Stops]

theorem stops_dropWhile (p : Char → Bool) (t : Text) : Stops p (t.dropWhile p) := by
  intro c hc
  have := List.head?_dropWhile_not p t
  rw [Option.mem_def.mp hc] at this
  simpa using this

theorem Stops.trimRight {t : Text} (h : Stops isBlank t) : Stops isBlank t.trimRight := by
  cases t with
  | nil => exact stops_nil _
  | cons c t =>
      rw [trimRight_cons_of_ink (stops_cons.mp h)]
      exact h

theorem Stops.trimRight_eq_nil_iff {t : Text} (h : Stops isBlank t) :
    t.trimRight = [] ↔ t = [] := by
  cases t with
  | nil => exact iff_of_true rfl rfl
  | cons c t => simp [trimRight_cons_of_ink (stops_cons.mp h)]

/-- The ink at the end of a text says where the end starts, if it starts with ink. -/
theorem append_inj_of_ink {s s' t t' : Text} (h : s ++ t = s' ++ t') (hink : ink t = ink t')
    (ht : Stops isBlank t) (ht' : Stops isBlank t') : s = s' ∧ t = t' := by
  have hnil : ∀ {m u : Text}, ink (m ++ u) = ink u → Stops isBlank (m ++ u) → m = [] := by
    intro m u hsame hstops
    have hm : ink m = [] := by simpa using hsame
    cases m with
    | nil => rfl
    | cons c m =>
        rw [ink_cons_of_not_blank (stops_cons.mp hstops)] at hm
        cases hm
  rcases List.append_eq_append_iff.mp h with ⟨m, rfl, rfl⟩ | ⟨m, rfl, rfl⟩
  · obtain rfl := hnil hink ht
    simp
  · obtain rfl := hnil hink.symm ht'
    simp

theorem takeWhile_append_of_stops {run rest : Text}
    (hrun : ∀ c ∈ run, p c = true) (hrest : Stops p rest) :
    (run ++ rest).takeWhile p = run := by
  rw [List.takeWhile_append_of_pos hrun]
  cases rest with
  | nil => simp
  | cons c rest => simp [stops_cons.mp hrest]

theorem dropWhile_append_of_stops {run rest : Text}
    (hrun : ∀ c ∈ run, p c = true) (hrest : Stops p rest) :
    (run ++ rest).dropWhile p = rest := by
  rw [List.dropWhile_append_of_pos hrun]
  cases rest with
  | nil => simp
  | cons c rest => simp [stops_cons.mp hrest]

theorem takeTail_append_of_stops {t u : Text} (ht : Stops p t.reverse)
    (hu : ∀ c ∈ u, p c = true) : takeTail p (t ++ u) = u := by
  rw [takeTail, List.reverse_append,
    takeWhile_append_of_stops (fun c hc => hu c (List.mem_reverse.mp hc)) ht, List.reverse_reverse]

theorem takeTail_append_of_not {t u : Text} (ht : ∀ c ∈ t, p c = false)
    (hu : ∀ c ∈ u, p c = true) : takeTail p (t ++ u) = u := by
  apply takeTail_append_of_stops _ hu
  intro c hc
  exact ht c (List.mem_reverse.mp (List.mem_of_mem_head? hc))

end Stops

end Text
end AsmColumns
