import AsmColumns.Proofs.Value
import AsmColumns.Settings.Basic

/-!
# Settings and their draft

Settings are written into a draft, options are written over it, and the draft is checked.  What
passes the check is valid.  The draft of valid settings passes and gives the settings back, so an
option that is changed to an allowed value changes nothing else; the draft of other settings is
refused, with a fault if its values can be written out.  Settings can be written out if every value
of their draft can.

The options that are most often changed, the style, the comment column and the tab stops, are
overridden in one go.
-/

namespace AsmColumns

open Comment (Style)

theorem Comment.Style.ofName?_name (style : Style) : Style.ofName? style.name = some style := by
  cases style <;> rfl

namespace Settings

theorem valid_default : ({} : Settings).Valid :=
  ⟨by decide, by decide, by decide, by decide⟩

theorem isWritable_iff {s : Settings} :
    s.isWritable = true ↔ ∀ key, (s.draft key).isWritable = true := by
  have hall : ∀ key : Key, key ∈ Key.all := by
    intro key
    cases key <;> decide
  rw [isWritable, Value.isWritable_table_iff, toMapping, List.forall_mem_map]
  constructor
  · exact fun h key => (h key (hall key)).2
  · exact fun h key _ => ⟨rfl, h key⟩

namespace Key

theorem name_injective {key other : Key} (h : key.name = other.name) : key = other := by
  revert h
  cases key <;> cases other <;> decide

theorem ofValue?_name (key : Key) : ofValue? (.text key.name) = some key := by
  cases key <;> rfl

theorem name_of_ofValue? {name : Text} {key : Key} (h : ofValue? (.text name) = some key) :
    key.name = name := by
  simpa using List.find?_some h

end Key

namespace Draft

theorem nonDecreasing_iff {stops : List Int} :
    nonDecreasing stops = true ↔ stops.Pairwise (· ≤ ·) := by
  induction stops with
  | nil => simp [nonDecreasing]
  | cons a rest ih =>
      cases rest with
      | nil => simp [nonDecreasing]
      | cons b rest =>
          rw [nonDecreasing, Bool.and_eq_true, decide_eq_true_eq, ih, List.pairwise_cons (a := a)]
          apply and_congr_left
          intro hrest
          constructor
          · intro hab stop hstop
            rcases List.mem_cons.mp hstop with rfl | hstop
            · exact hab
            · exact Int.le_trans hab ((List.pairwise_cons.mp hrest).1 stop hstop)
          · intro hall
            exact hall b List.mem_cons_self

/-- A refusal names the option and quotes its value. -/
theorem refuse_of_isWritable {α : Type} {d : Draft} {key : Key}
    (h : (d key).isWritable = true) (reason : String) :
    (d.refuse key reason : Except Rejection α) = .error (.fault ⟨key.name, d key, reason⟩) := by
  rw [refuse, Rejection.refusal, if_pos h]

/-! ## Settings that pass the check -/

theorem checkStops_ok {d : Draft} {stops : List Int} (h : d.checkStops = .ok stops) :
    (∀ stop ∈ stops, 0 ≤ stop) ∧ stops.Pairwise (· ≤ ·) := by
  rw [checkStops] at h
  split at h
  · cases h
  · split at h
    · cases h
    · split at h
      · cases h
      · next hnonneg =>
        split at h
        · next hsorted =>
          cases h
          refine ⟨?_, nonDecreasing_iff.mp hsorted⟩
          simpa using hnonneg
        · cases h

end Draft

theorem exists_of_bind_ok {ε α β : Type} {x : Except ε α} {f : α → Except ε β} {b : β}
    (h : x >>= f = .ok b) : ∃ a, x = .ok a ∧ f a = .ok b := by
  cases x with
  | error e => cases h
  | ok a => exact ⟨a, rfl, h⟩

/-- Every setting comes from the check of its option. -/
structure Draft.Gives (d : Draft) (s : Settings) : Prop where
  style : d.checkStyle = .ok s.style
  tabStops : d.checkStops = .ok s.tabStops
  tabWidth : d.checkInteger .tabWidth = .ok s.tabWidth
  commentColumn : d.checkInteger .commentColumn = .ok s.commentColumn
  width_pos : 1 ≤ s.tabWidth
  column_nonneg : 0 ≤ s.commentColumn
  colonAfterLabel : d.checkSwitch .colonAfterLabel = .ok s.colonAfterLabel
  tabAfterOperation : d.checkSwitch .tabAfterOperation = .ok s.tabAfterOperation
  newlineAfterLabel : d.checkSwitch .newlineAfterLabel = .ok s.newlineAfterLabel

theorem Draft.gives_of_check {d : Draft} {s : Settings} (h : d.check = .ok s) : d.Gives s := by
  obtain ⟨style, hstyle, h⟩ := exists_of_bind_ok h
  obtain ⟨tabStops, hstops, h⟩ := exists_of_bind_ok h
  obtain ⟨tabWidth, hwidth, h⟩ := exists_of_bind_ok h
  obtain ⟨commentColumn, hcolumn, h⟩ := exists_of_bind_ok h
  dsimp only at h
  split at h
  · cases h
  next hpositive =>
  split at h
  · cases h
  next hnonneg =>
  obtain ⟨colonAfterLabel, hcolon, h⟩ := exists_of_bind_ok h
  obtain ⟨tabAfterOperation, htab, h⟩ := exists_of_bind_ok h
  obtain ⟨newlineAfterLabel, hnewline, h⟩ := exists_of_bind_ok h
  cases h
  exact ⟨hstyle, hstops, hwidth, hcolumn, Int.not_lt.mp hpositive, Int.not_lt.mp hnonneg, hcolon,
    htab, hnewline⟩

theorem Draft.check_valid {d : Draft} {s : Settings} (h : d.check = .ok s) : s.Valid := by
  have hgives := gives_of_check h
  obtain ⟨hnonneg, hsorted⟩ := checkStops_ok hgives.tabStops
  exact ⟨hnonneg, hsorted, hgives.width_pos, hgives.column_nonneg⟩

theorem update_valid {s t : Settings} {options : List (Value × Value)}
    (h : s.update options = .ok t) : t.Valid := by
  rw [update] at h
  split at h
  · cases h
  · exact Draft.check_valid h

/-! ## The draft of settings -/

namespace Draft

theorem checkItems_int (d : Draft) (stops : List Int) :
    d.checkItems (stops.map .int) = .ok stops := by
  induction stops with
  | nil => rfl
  | cons stop rest ih => simp [checkItems, Value.toInteger, ih]

theorem checkStyle_draft (s : Settings) : s.draft.checkStyle = .ok s.style := by
  have hname : Style.ofName? (s.draft .commentStyle).asName = some s.style :=
    Style.ofName?_name s.style
  rw [checkStyle, hname]

theorem checkStops_draft (s : Settings) :
    s.draft.checkStops =
      if s.tabStops.any (· < 0) then s.draft.refuse .tabStops "columns must be non-negative"
      else if nonDecreasing s.tabStops then .ok s.tabStops
      else s.draft.refuse .tabStops "columns must be non-decreasing" := by
  have hitems : (s.draft .tabStops).items? = some (s.tabStops.map .int) := rfl
  simp only [checkStops, hitems, checkItems_int]

end Draft

/-- The check of the draft of settings, test by test. -/
theorem check_draft_eq (s : Settings) :
    s.draft.check =
      if s.tabStops.any (· < 0) then s.draft.refuse .tabStops "columns must be non-negative"
      else if Draft.nonDecreasing s.tabStops = false then
        s.draft.refuse .tabStops "columns must be non-decreasing"
      else if s.tabWidth < 1 then s.draft.refuse .tabWidth "must be at least 1"
      else if s.commentColumn < 0 then s.draft.refuse .commentColumn "must be non-negative"
      else .ok s := by
  simp only [Draft.check, Draft.checkStyle_draft, Draft.checkStops_draft, Draft.checkInteger,
    Draft.checkSwitch, draft, bind, Except.bind]
  cases s.tabStops.any (· < 0) with
  | true => rfl
  | false =>
      cases Draft.nonDecreasing s.tabStops with
      | false => rfl
      | true =>
          by_cases hwidth : s.tabWidth < 1
          · simp [hwidth, Draft.refuse]
          · by_cases hcolumn : s.commentColumn < 0
            · simp [hwidth, hcolumn, Draft.refuse]
            · simp [hwidth, hcolumn, pure, Except.pure]

/-- Valid settings pass their own check. -/
theorem check_draft {s : Settings} (h : s.Valid) : s.draft.check = .ok s := by
  have hnonneg : ¬ s.tabStops.any (· < 0) = true := by
    simpa using h.stops_nonneg
  have hsorted : ¬ Draft.nonDecreasing s.tabStops = false := by
    simpa using Draft.nonDecreasing_iff.mpr h.stops_sorted
  rw [check_draft_eq, if_neg hnonneg, if_neg hsorted, if_neg (Int.not_lt.mpr h.width_pos),
    if_neg (Int.not_lt.mpr h.column_nonneg)]

theorem exists_fault_of_not_valid {s : Settings}
    (hwritable : ∀ key, (s.draft key).isWritable = true) (h : ¬ s.Valid) :
    ∃ f, s.draft.check = .error (.fault f) := by
  rw [check_draft_eq]
  split
  · exact ⟨_, Draft.refuse_of_isWritable (hwritable .tabStops) _⟩
  · next hnonneg =>
    split
    · exact ⟨_, Draft.refuse_of_isWritable (hwritable .tabStops) _⟩
    · next hsorted =>
      split
      · exact ⟨_, Draft.refuse_of_isWritable (hwritable .tabWidth) _⟩
      · next hwidth =>
        split
        · exact ⟨_, Draft.refuse_of_isWritable (hwritable .commentColumn) _⟩
        · next hcolumn =>
          refine absurd ⟨?_, ?_, Int.not_lt.mp hwidth, Int.not_lt.mp hcolumn⟩ h
          · simpa using hnonneg
          · exact Draft.nonDecreasing_iff.mp (Bool.not_eq_false _ ▸ hsorted)

theorem set_draft_style (s : Settings) (style : Style) :
    s.draft.set .commentStyle (.text style.name) = { s with style }.draft := by
  funext key
  cases key <;> rfl

theorem set_draft_column (s : Settings) (column : Int) :
    s.draft.set .commentColumn (.int column) = { s with commentColumn := column }.draft := by
  funext key
  cases key <;> rfl

theorem set_draft_stops (s : Settings) (stops : List Int) :
    s.draft.set .tabStops (.list (stops.map .int)) = { s with tabStops := stops }.draft := by
  funext key
  cases key <;> rfl

/-! ## Options that override others -/

/-- The options that a command line can override, by name. -/
def overrides (style : Option Style) (column : Option Int) (stops : Option (List Int)) :
    List (Value × Value) :=
  (style.map fun style => (Value.text Key.commentStyle.name, Value.text style.name)).toList ++
    (column.map fun column => (Value.text Key.commentColumn.name, Value.int column)).toList ++
    (stops.map fun stops => (Value.text Key.tabStops.name, Value.list (stops.map .int))).toList

/-- The settings with some of these options in place of their own. -/
def overridden (s : Settings) (style : Option Style) (column : Option Int)
    (stops : Option (List Int)) : Settings :=
  { s with
    style := style.getD s.style
    commentColumn := column.getD s.commentColumn
    tabStops := stops.getD s.tabStops }

section overrides

variable (s : Settings) (style : Option Style) (column : Option Int) (stops : Option (List Int))

theorem collapse_overrides :
    Value.collapse (overrides style column stops) = overrides style column stops := by
  cases style <;> cases column <;> cases stops <;> rfl

theorem setAll_overrides :
    s.draft.setAll (overrides style column stops) =
      .ok (s.overridden style column stops).draft := by
  cases style <;> cases column <;> cases stops <;>
    simp [overrides, overridden, Draft.setAll, Key.ofValue?_name, set_draft_style,
      set_draft_column, set_draft_stops]

theorem update_overrides :
    s.update (overrides style column stops) = (s.overridden style column stops).draft.check := by
  rw [update, collapse_overrides, setAll_overrides]

theorem valid_overridden_iff {s : Settings} (h : s.Valid) :
    (s.overridden style column stops).Valid ↔
      (∀ n ∈ column, 0 ≤ n) ∧
        ∀ list ∈ stops, (∀ stop ∈ list, 0 ≤ stop) ∧ list.Pairwise (· ≤ ·) := by
  constructor
  · intro hvalid
    constructor
    · rintro column rfl
      exact hvalid.column_nonneg
    · rintro stops rfl
      exact ⟨hvalid.stops_nonneg, hvalid.stops_sorted⟩
  · rintro ⟨hcolumn, hstops⟩
    have hown : (∀ stop ∈ stops.getD s.tabStops, 0 ≤ stop) ∧
        (stops.getD s.tabStops).Pairwise (· ≤ ·) := by
      cases stops with
      | none => exact ⟨h.stops_nonneg, h.stops_sorted⟩
      | some stops => exact hstops stops rfl
    refine ⟨hown.1, hown.2, h.width_pos, ?_⟩
    cases column with
    | none => exact h.column_nonneg
    | some column => exact hcolumn column rfl

end overrides

/-- Changing the style alone is never refused. -/
theorem update_style {s : Settings} (h : s.Valid) (style : Style) :
    s.update [(.text Key.commentStyle.name, .text style.name)] = .ok { s with style } := by
  have hupdate := update_overrides s (some style) none none
  have hvalid : (s.overridden (some style) none none).Valid :=
    (valid_overridden_iff (some style) none none h).mpr ⟨nofun, nofun⟩
  exact hupdate.trans (check_draft hvalid)

end Settings
end AsmColumns
