import AsmColumns.Value
import Mathlib.Tactic.Ring

/-!
# Values that can be written out, and tables

An integer of more digits than are ever read has no written form.  So an integer that was read from
a text can be written out again, and a value can be written out if every integer in it can.  No
column that a text can reach is too long to be written.

A table is built entry by entry, and an entry replaces the one of the same key.  Entries without a
key twice are the table.
-/

namespace AsmColumns

namespace Decimal

theorem sub_lt_of_isDigit {c : Char} (h : c.isDigit = true) : c.toNat - 48 < 10 := by
  simp only [Char.isDigit, Bool.and_eq_true, decide_eq_true_eq, UInt32.le_iff_toNat_le] at h
  change 48 ≤ c.toNat ∧ c.toNat ≤ 57 at h
  omega

/-- One more digit multiplies the values that the digits can have by ten. -/
theorem digit_mul_pow_le {prior k d : Nat} (hd : d < 10) :
    (prior * 10 + d + 1) * 10 ^ k ≤ (prior + 1) * 10 ^ (k + 1) := by
  calc
    (prior * 10 + d + 1) * 10 ^ k ≤ ((prior + 1) * 10) * 10 ^ k :=
      Nat.mul_le_mul_right _ (by omega)
    _ = (prior + 1) * 10 ^ (k + 1) := by ring

theorem digitsFrom?_lt {prior n : Nat} {t : Text} (h : digitsFrom? prior t = some n) :
    n < (prior + 1) * 10 ^ (t.filter Char.isDigit).length := by
  fun_induction digitsFrom? prior t with
  | case1 prior =>
      obtain rfl := Option.some.inj h
      simp
  | case2 prior c rest hc ih =>
      rw [List.filter_cons_of_pos hc, List.length_cons]
      exact (ih h).trans_le (digit_mul_pow_le (sub_lt_of_isDigit hc))
  | case3 prior c hc hunderscore d rest hd ih =>
      rw [List.filter_cons_of_neg (by simpa using hc), List.filter_cons_of_pos hd,
        List.length_cons]
      exact (ih h).trans_le (digit_mul_pow_le (sub_lt_of_isDigit hd))
  | case4 => cases h
  | case5 => cases h
  | case6 => cases h

theorem natural?_lt {t : Text} {n : Nat} (h : natural? t = some n) : n < 10 ^ maxDigits := by
  cases t with
  | nil => cases h
  | cons c rest =>
      rw [natural?] at h
      split at h
      · next hdigits =>
        rw [Bool.and_eq_true, decide_eq_true_eq] at hdigits
        obtain ⟨hc, hlength⟩ := hdigits
        rw [List.filter_cons_of_pos hc, List.length_cons] at hlength
        have hd := sub_lt_of_isDigit hc
        calc
          n < (c.toNat - 48 + 1) * 10 ^ (rest.filter Char.isDigit).length := digitsFrom?_lt h
          _ ≤ 10 * 10 ^ (rest.filter Char.isDigit).length := Nat.mul_le_mul_right _ (by omega)
          _ = 10 ^ ((rest.filter Char.isDigit).length + 1) := by ring
          _ ≤ 10 ^ maxDigits := Nat.pow_le_pow_right (by decide) hlength
      · cases h

theorem plainInteger?_lt {t : Text} {n : Int} (h : plainInteger? t = some n) :
    n.natAbs < 10 ^ maxDigits := by
  simp only [plainInteger?] at h
  split at h
  · obtain ⟨m, hm, rfl⟩ := Option.map_eq_some_iff.mp h
    obtain ⟨k, hk, hkm⟩ := Option.bind_eq_some_iff.mp hm
    obtain rfl : (k : Int) = m := Option.some.inj hkm
    simpa using natural?_lt hk
  · obtain ⟨m, hm, rfl⟩ := Option.map_eq_some_iff.mp h
    simpa using natural?_lt hm
  · obtain ⟨m, hm, rfl⟩ := Option.map_eq_some_iff.mp h
    simpa using natural?_lt hm

theorem isWritable_iff {n : Int} : isWritable n = true ↔ n.natAbs < 10 ^ maxDigits := by
  rw [isWritable, decide_eq_true_eq]
  exact Nat.length_toDigits_le_iff (by decide) (by decide)

theorem isWritable_of_le_maxRun {n : Int} (hpos : 0 ≤ n) (hle : n ≤ Text.maxRun) :
    isWritable n = true := by
  have hrun : Text.maxRun.natAbs < 10 ^ 19 := by decide
  rw [isWritable_iff]
  calc
    n.natAbs ≤ Text.maxRun.natAbs := by omega
    _ < 10 ^ 19 := hrun
    _ ≤ 10 ^ maxDigits := Nat.pow_le_pow_right (by decide) (by decide)

theorem isWritable_natCast {n : Nat} (h : (n : Int) ≤ Text.maxRun) : isWritable n = true :=
  isWritable_of_le_maxRun (Int.natCast_nonneg n) h

/-- The least positive integer without a written form.  It is too large to be evaluated. -/
@[irreducible] def leastUnwritable : Int :=
  (Nat.pow 10 maxDigits : Nat)

theorem isWritable_leastUnwritable : isWritable leastUnwritable = false := by
  have hpow : ∀ digits, ((Nat.pow 10 digits : Nat) : Int).natAbs = 10 ^ digits := fun _ => rfl
  rw [← Bool.not_eq_true, isWritable_iff, leastUnwritable, hpow]
  exact lt_irrefl _

theorem leastUnwritable_nonneg : 0 ≤ leastUnwritable := by
  rw [leastUnwritable]
  exact Int.natCast_nonneg _

theorem maxRun_lt_leastUnwritable : Text.maxRun < leastUnwritable := by
  have hnot := isWritable_leastUnwritable
  by_contra hle
  rw [isWritable_of_le_maxRun leastUnwritable_nonneg (by omega)] at hnot
  cases hnot

theorem isWritable_neg (n : Int) : isWritable (-n) = isWritable n := by
  rw [isWritable, isWritable, Int.natAbs_neg]

theorem noting_eq_error_iff {α : Type} {n : Int} {answer : α} :
    noting n answer = .error {} ↔ isWritable n = false := by
  unfold noting
  split <;> simp_all

theorem noting_ne_ok_true (n : Int) : noting n false ≠ .ok true := by
  unfold noting
  split <;> simp

end Decimal

namespace Value

theorem isWritable_int_iff {n : Int} :
    (Value.int n).isWritable = true ↔ n.natAbs < 10 ^ Decimal.maxDigits :=
  Decimal.isWritable_iff

theorem isWritable_list_iff {items : List Value} :
    (Value.list items).isWritable = true ↔ ∀ item ∈ items, item.isWritable = true := by
  rw [isWritable]
  induction items with
  | nil => simp [areWritable]
  | cons item rest ih => simp [areWritable, ih]

theorem isWritable_table_iff {entries : List (Value × Value)} :
    (Value.table entries).isWritable = true ↔
      ∀ entry ∈ entries, entry.1.isWritable = true ∧ entry.2.isWritable = true := by
  rw [isWritable]
  induction entries with
  | nil => simp [areEntriesWritable]
  | cons entry rest ih =>
      obtain ⟨key, value⟩ := entry
      simp [areEntriesWritable, ih]

/-- An integer that was read can be written. -/
theorem isWritable_of_integer? {t : Text} {n : Int} (h : Decimal.integer? t = some n) :
    (Value.int n).isWritable = true :=
  isWritable_int_iff.mpr (Decimal.plainInteger?_lt h)

/-! ## Tables -/

theorem sameKey_text (s t : Text) : sameKey (.text s) (.text t) = (s == t) := rfl

theorem putEntry_of_forall {key value : Value} {table : List (Value × Value)}
    (h : ∀ entry ∈ table, sameKey entry.1 key = false) :
    putEntry key value table = table ++ [(key, value)] := by
  induction table with
  | nil => rfl
  | cons entry rest ih =>
      obtain ⟨hentry, hrest⟩ := List.forall_mem_cons.mp h
      simp [putEntry, hentry, ih hrest]

theorem foldl_putEntry {table entries : List (Value × Value)}
    (h : (table ++ entries).Pairwise fun a b => sameKey a.1 b.1 = false) :
    entries.foldl (fun table entry => putEntry entry.1 entry.2 table) table = table ++ entries := by
  induction entries generalizing table with
  | nil => simp
  | cons entry rest ih =>
      have hnew : ∀ old ∈ table, sameKey old.1 entry.1 = false := fun old hold =>
        (List.pairwise_append.mp h).2.2 old hold entry List.mem_cons_self
      rw [List.foldl_cons, putEntry_of_forall hnew, ih (by simpa using h)]
      simp

/-- A table without a key twice is kept as it is. -/
theorem collapse_of_pairwise {entries : List (Value × Value)}
    (h : entries.Pairwise fun a b => sameKey a.1 b.1 = false) : collapse entries = entries := by
  rw [collapse, foldl_putEntry (by simpa using h), List.nil_append]

end Value
end AsmColumns
