import AsmColumns.Proofs.Layout.Column
import Mathlib

/-!
# The stops in their order

The stops of a line are the configured ones and, behind all of these, the multiples of the width.
The next stop behind a column is the least of them that lies behind it.  From this alone it follows
that the next stop grows with the column, and that going from stop to stop passes through every
stop behind the first column, each once and in increasing order.
-/

namespace AsmColumns

/-- Configured stops in their order, none left of the margin, and a width to go on with. -/
structure TabStops.Ordered (tabs : TabStops) : Prop where
  stops_nonneg : ∀ stop ∈ tabs.stops, 0 ≤ stop
  stops_sorted : tabs.stops.Pairwise (· ≤ ·)
  width_pos : 1 ≤ tabs.width

theorem Settings.Valid.ordered_stops {s : Settings} (h : s.Valid) : s.stops.Ordered :=
  ⟨h.stops_nonneg, h.stops_sorted, h.width_pos⟩

namespace TabStops

/-- A configured stop, or a positive multiple of the width behind all configured stops. -/
def IsStop (tabs : TabStops) (column : Int) : Prop :=
  column ∈ tabs.stops ∨
    tabs.width ∣ column ∧ 0 < column ∧ ∀ stop ∈ tabs.stops, stop < column

instance (tabs : TabStops) (column : Int) : Decidable (tabs.IsStop column) :=
  inferInstanceAs (Decidable (_ ∨ _))

variable {tabs : TabStops} {column : Int}

/-! ## Multiples of the width -/

theorem dvd_nextMultiple (tabs : TabStops) (column : Int) :
    tabs.width ∣ tabs.nextMultiple column :=
  Int.dvd_mul_left _ _

theorem nextMultiple_le (hwidth : 1 ≤ tabs.width) {multiple : Int} (hdvd : tabs.width ∣ multiple)
    (hbehind : column < multiple) : tabs.nextMultiple column ≤ multiple := by
  obtain ⟨factor, rfl⟩ := hdvd
  have hfactor : column.fdiv tabs.width < factor := by
    rw [Int.fdiv_eq_ediv_of_nonneg _ (by omega)]
    apply Int.ediv_lt_of_lt_mul (by omega)
    rwa [Int.mul_comm]
  rw [nextMultiple, Int.mul_comm]
  exact Int.mul_le_mul_of_nonneg_left hfactor (by omega)

/-! ## The least stop behind a column -/

/-- In a list in order, the first element behind a column is the least one behind it. -/
theorem le_of_find?_eq_some {stops : List Int} (hsorted : stops.Pairwise (· ≤ ·)) {first stop : Int}
    (hfirst : stops.find? (column < ·) = some first) (hstop : stop ∈ stops)
    (hbehind : column < stop) : first ≤ stop := by
  obtain ⟨-, before, after, rfl, hbefore⟩ := List.find?_eq_some_iff_append.mp hfirst
  rcases List.mem_append.mp hstop with hstop | hstop
  · have hle : stop ≤ column := by simpa using hbefore stop hstop
    omega
  · rcases List.mem_cons.mp hstop with rfl | hstop
    · exact Int.le_refl _
    · have htail := (List.pairwise_append.mp hsorted).2.1
      exact (List.pairwise_cons.mp htail).1 stop hstop

theorem le_of_find?_eq_none {stops : List Int} (hnone : stops.find? (column < ·) = none) {stop : Int}
    (hstop : stop ∈ stops) : stop ≤ column := by
  simpa using List.find?_eq_none.mp hnone stop hstop

theorem isStop_nextStop (htabs : tabs.Ordered) (hcolumn : 0 ≤ column) :
    tabs.IsStop (tabs.nextStop column) := by
  rw [nextStop]
  split
  · next first hfirst => exact .inl (List.mem_of_find?_eq_some hfirst)
  · next hnone =>
    have hlt := lt_nextMultiple htabs.width_pos column
    refine .inr ⟨dvd_nextMultiple tabs column, by omega, ?_⟩
    intro stop hstop
    exact Int.lt_of_le_of_lt (le_of_find?_eq_none hnone hstop) hlt

theorem nextStop_le (htabs : tabs.Ordered) {stop : Int} (hstop : tabs.IsStop stop)
    (hbehind : column < stop) : tabs.nextStop column ≤ stop := by
  rw [nextStop]
  split
  · next first hfirst =>
    rcases hstop with hmem | ⟨-, -, hlast⟩
    · exact le_of_find?_eq_some htabs.stops_sorted hfirst hmem hbehind
    · exact Int.le_of_lt (hlast first (List.mem_of_find?_eq_some hfirst))
  · next hnone =>
    rcases hstop with hmem | ⟨hdvd, -, -⟩
    · have hle := le_of_find?_eq_none hnone hmem
      omega
    · exact nextMultiple_le htabs.width_pos hdvd hbehind

theorem isLeast_nextStop (htabs : tabs.Ordered) (hcolumn : 0 ≤ column) :
    IsLeast {stop | tabs.IsStop stop ∧ column < stop} (tabs.nextStop column) := by
  refine ⟨⟨isStop_nextStop htabs hcolumn, lt_nextStop htabs.width_pos column⟩, ?_⟩
  rintro stop ⟨hstop, hbehind⟩
  exact nextStop_le htabs hstop hbehind

/-! ## From stop to stop -/

theorem nextStop?_eq_some (htabs : tabs.Ordered) (column : Int) :
    tabs.nextStop? column = some (tabs.nextStop column) := by
  have hwidth : tabs.width ≠ 0 := by
    have := htabs.width_pos
    omega
  simp [nextStop?, hwidth]

theorem strictMono_iterate_nextStop (htabs : tabs.Ordered) (column : Int) :
    StrictMono fun n => tabs.nextStop^[n] column := by
  apply strictMono_nat_of_lt_succ
  intro n
  rw [Function.iterate_succ_apply']
  exact lt_nextStop htabs.width_pos _

theorem le_iterate_nextStop (htabs : tabs.Ordered) (column : Int) (n : Nat) :
    column ≤ tabs.nextStop^[n] column :=
  (strictMono_iterate_nextStop htabs column).monotone (Nat.zero_le n)

/-- No stop behind the column is passed over. -/
theorem exists_iterate_nextStop_eq (htabs : tabs.Ordered) {stop : Int} (hstop : tabs.IsStop stop)
    (hbehind : column < stop) : ∃ n, tabs.nextStop^[n + 1] column = stop := by
  -- The induction is on the distance to the stop, which every step makes smaller.
  induction hdistance : (stop - column).toNat using Nat.strongRecOn generalizing column with
  | ind distance ih =>
      rcases Int.le_iff_eq_or_lt.mp (nextStop_le htabs hstop hbehind) with hnext | hnext
      · exact ⟨0, hnext⟩
      · have hlt := lt_nextStop htabs.width_pos column
        obtain ⟨n, hn⟩ := ih _ (by omega) hnext rfl
        exact ⟨n + 1, hn⟩

theorem range_iterate_nextStop (htabs : tabs.Ordered) (hcolumn : 0 ≤ column) :
    Set.range (fun n => tabs.nextStop^[n + 1] column) =
      {stop | tabs.IsStop stop ∧ column < stop} := by
  ext stop
  constructor
  · rintro ⟨n, rfl⟩
    have hle := le_iterate_nextStop htabs column n
    dsimp only
    rw [Function.iterate_succ_apply']
    have hlt := lt_nextStop htabs.width_pos (tabs.nextStop^[n] column)
    exact ⟨isStop_nextStop htabs (by omega), by omega⟩
  · rintro ⟨hstop, hbehind⟩
    exact exists_iterate_nextStop_eq htabs hstop hbehind

/-- The next stop is found, and it is the least stop behind the column.  So it lies behind the
column and grows with it, and repeating it, which never fails, visits exactly the stops behind the
column, in increasing order. -/
theorem nextStop_enumerates_stops (htabs : tabs.Ordered) (hcolumn : 0 ≤ column) :
    IsLeast {stop | tabs.IsStop stop ∧ column < stop} (tabs.nextStop column) ∧
    column < tabs.nextStop column ∧
    (∀ later, column ≤ later → tabs.nextStop column ≤ tabs.nextStop later) ∧
    (∀ n, tabs.nextStop? (tabs.nextStop^[n] column) = some (tabs.nextStop^[n + 1] column)) ∧
    StrictMono (fun n => tabs.nextStop^[n] column) ∧
    Set.range (fun n => tabs.nextStop^[n + 1] column) =
      {stop | tabs.IsStop stop ∧ column < stop} := by
  have hleast := isLeast_nextStop htabs hcolumn
  refine ⟨hleast, hleast.1.2, ?_, ?_, strictMono_iterate_nextStop htabs column,
    range_iterate_nextStop htabs hcolumn⟩
  · intro later hlater
    have hnext := isLeast_nextStop htabs (Int.le_trans hcolumn hlater)
    exact hleast.2 ⟨hnext.1.1, Int.lt_of_le_of_lt hlater hnext.1.2⟩
  · intro n
    rw [Function.iterate_succ_apply']
    exact nextStop?_eq_some htabs _

/-- A stop at the margin, one configured twice, and a last one that is no multiple of the width:
behind column 3 come column 10 and then the multiples of 4 from 12 on. -/
theorem nextStop_enumerates_uneven_stops :
    ({ tabStops := [0, 3, 3, 10], tabWidth := 4 } : Settings).stops.Ordered ∧ (0 : Int) ≤ 3 ∧
      IsLeast {stop | TabStops.IsStop ⟨[0, 3, 3, 10], 4⟩ stop ∧ 3 < stop} 10 ∧
      4000 ∈ Set.range (fun n => (TabStops.nextStop ⟨[0, 3, 3, 10], 4⟩)^[n + 1] 3) ∧
      8 ∉ Set.range (fun n => (TabStops.nextStop ⟨[0, 3, 3, 10], 4⟩)^[n + 1] 3) := by
  have hvalid : ({ tabStops := [0, 3, 3, 10], tabWidth := 4 } : Settings).Valid :=
    ⟨by decide, by decide, by decide, by decide⟩
  have htabs : TabStops.Ordered ⟨[0, 3, 3, 10], 4⟩ := hvalid.ordered_stops
  obtain ⟨hleast, -, -, -, -, hrange⟩ :=
    nextStop_enumerates_stops htabs (show (0 : Int) ≤ 3 by decide)
  rw [hrange]
  exact ⟨hvalid.ordered_stops, by decide, hleast, by decide, by decide⟩

end TabStops
end AsmColumns
