import AsmColumns.Proofs.Settings.Draft
import AsmColumns.Proofs.Value

/-!
# Which options are refused

The check of a draft is a list of tests, each of one option, and the first test that fails decides:
its option is the one reported.  A mapping of options is refused for a name that is none, and then
for the first test that fails on the values it gives; options that it does not name have the values
they have without it, which pass.  So the option reported is one of the mapping, with its value.

Two values get in the way of the report.  The tab stops are turned into columns one by one, and an
item at infinity stops that before it can be refused; and a refusal quotes the value, which a value
with too long an integer in it does not allow.
-/

namespace AsmColumns

open Comment (Style)

namespace Value

/-- Item by item there are columns, and then there is infinity. -/
def RunToInfinity (items : List Value) : Prop :=
  ∃ front negative back, items = front ++ .float (.infinite negative) :: back ∧
    ∀ item ∈ front, ∃ n, item.toInteger = .ok n

/-- One comes to infinity by going through the items of the value. -/
def ReachesInfinity (value : Value) : Prop :=
  ∃ items, value.items? = some items ∧ RunToInfinity items

/-- The columns that the items of a value stand for. -/
def columns? (value : Value) : Option (List Int) :=
  value.items?.bind (·.mapM fun item => item.toInteger.toOption)

def isStyleName (value : Value) : Bool :=
  (Style.ofName? value.asName).isSome

def isColumnList (value : Value) : Bool :=
  value.columns?.any fun stops => stops.all (0 ≤ ·) && Settings.Draft.nonDecreasing stops

def isInteger : Value → Bool
  | .int _ => true
  | _ => false

def isAtLeast (least : Int) : Value → Bool
  | .int n => least ≤ n
  | _ => false

def isSwitch : Value → Bool
  | .bool _ => true
  | _ => false

theorem toInteger_eq_infinite_iff {item : Value} :
    item.toInteger = .error .infinite ↔ ∃ negative, item = .float (.infinite negative) := by
  cases item with
  | float x => cases x <;> simp [toInteger]
  | text t =>
      rw [toInteger]
      split <;> simp
  | bytes octets =>
      rw [toInteger]
      split <;> simp
  | null | bool | int | list | table => simp [toInteger]

theorem not_runToInfinity_nil : ¬ RunToInfinity [] := by
  rintro ⟨front, negative, back, hitems, -⟩
  simp at hitems

theorem runToInfinity_cons {item : Value} {rest : List Value} :
    RunToInfinity (item :: rest) ↔
      item.toInteger = .error .infinite ∨ (∃ n, item.toInteger = .ok n) ∧ RunToInfinity rest := by
  constructor
  · rintro ⟨front, negative, back, hitems, hfront⟩
    cases front with
    | nil =>
        rw [List.nil_append, List.cons.injEq] at hitems
        exact .inl (toInteger_eq_infinite_iff.mpr ⟨negative, hitems.1⟩)
    | cons first front =>
        rw [List.cons_append, List.cons.injEq] at hitems
        obtain ⟨rfl, hrest⟩ := hitems
        obtain ⟨hfirst, hmore⟩ := List.forall_mem_cons.mp hfront
        exact .inr ⟨hfirst, front, negative, back, hrest, hmore⟩
  · rintro (hinfinite | ⟨hitem, front, negative, back, rfl, hfront⟩)
    · obtain ⟨negative, rfl⟩ := toInteger_eq_infinite_iff.mp hinfinite
      exact ⟨[], negative, rest, rfl, by simp⟩
    · exact ⟨item :: front, negative, back, rfl, List.forall_mem_cons.mpr ⟨hitem, hfront⟩⟩

end Value

namespace Settings

namespace Draft

/-! ## The tests of a draft -/

/-- The tests of a draft in the order in which they are made. -/
def tests : List (Key × (Value → Bool)) :=
  [(.commentStyle, Value.isStyleName), (.tabStops, Value.isColumnList),
    (.tabWidth, Value.isInteger), (.commentColumn, Value.isInteger),
    (.tabWidth, Value.isAtLeast 1), (.commentColumn, Value.isAtLeast 0),
    (.colonAfterLabel, Value.isSwitch), (.tabAfterOperation, Value.isSwitch),
    (.newlineAfterLabel, Value.isSwitch)]

/-- The option of the first of some tests that fails. -/
def firstFailed (d : Draft) : List (Key × (Value → Bool)) → Option Key
  | [] => none
  | (key, passes) :: rest => if passes (d key) then d.firstFailed rest else some key

/-- How a check ends that makes these tests. -/
inductive Ends (d : Draft) (made : List (Key × (Value → Bool))) :
    Except Rejection Settings → Prop where
  | accepted {s : Settings} : d.firstFailed made = none → Ends d made (.ok s)
  | infinite :
      d.firstFailed made = some .tabStops → (d .tabStops).ReachesInfinity →
      Ends d made (.error .infiniteStop)
  | refused {key : Key} {reason : String} :
      d.firstFailed made = some key → ¬ (key = .tabStops ∧ (d .tabStops).ReachesInfinity) →
      Ends d made (.error (.refusal key.name (d key) reason))

theorem checkStyle_cases (d : Draft) :
    ((d .commentStyle).isStyleName = false ∧
        ∃ reason, d.checkStyle = d.refuse .commentStyle reason) ∨
      ((d .commentStyle).isStyleName = true ∧ ∃ style, d.checkStyle = .ok style) := by
  rw [checkStyle, Value.isStyleName]
  cases Style.ofName? (d .commentStyle).asName with
  | none => exact .inl ⟨rfl, _, rfl⟩
  | some style => exact .inr ⟨rfl, style, rfl⟩

theorem checkItems_cases (d : Draft) (items : List Value) :
    (items.mapM (fun item => item.toInteger.toOption) = none ∧
        (Value.RunToInfinity items ∧ d.checkItems items = .error .infiniteStop ∨
          ¬ Value.RunToInfinity items ∧
            ∃ reason, d.checkItems items = d.refuse .tabStops reason)) ∨
      ∃ stops, items.mapM (fun item => item.toInteger.toOption) = some stops ∧
        ¬ Value.RunToInfinity items ∧ d.checkItems items = .ok stops := by
  induction items with
  | nil => exact .inr ⟨[], rfl, Value.not_runToInfinity_nil, rfl⟩
  | cons item rest ih =>
      rw [checkItems, Value.runToInfinity_cons, List.mapM_cons]
      cases hitem : item.toInteger with
      | error why =>
          left
          refine ⟨rfl, ?_⟩
          cases why with
          | infinite => exact .inl ⟨.inl rfl, rfl⟩
          | malformed => exact .inr ⟨by simp, _, rfl⟩
      | ok stop =>
          rcases ih with
            ⟨hmap, ⟨hrun, hcheck⟩ | ⟨hrun, reason, hcheck⟩⟩ | ⟨stops, hmap, hrun, hcheck⟩
          · exact .inl ⟨by rw [hmap]; rfl, .inl ⟨.inr ⟨⟨stop, rfl⟩, hrun⟩, by rw [hcheck]⟩⟩
          · refine .inl ⟨by rw [hmap]; rfl, .inr ⟨by simp [hrun], reason, ?_⟩⟩
            rw [hcheck]
            rfl
          · exact .inr ⟨stop :: stops, by rw [hmap]; rfl, by simp [hrun], by rw [hcheck]⟩

theorem checkStops_cases (d : Draft) :
    ((d .tabStops).isColumnList = false ∧
        ((d .tabStops).ReachesInfinity ∧ d.checkStops = .error .infiniteStop ∨
          ¬ (d .tabStops).ReachesInfinity ∧
            ∃ reason, d.checkStops = d.refuse .tabStops reason)) ∨
      ((d .tabStops).isColumnList = true ∧ ∃ stops, d.checkStops = .ok stops) := by
  rw [checkStops, Value.isColumnList, Value.columns?, Value.ReachesInfinity]
  cases (d .tabStops).items? with
  | none => exact .inl ⟨rfl, .inr ⟨by simp, _, rfl⟩⟩
  | some items =>
      simp only [Option.bind_some, Option.some.injEq, exists_eq_left']
      rcases d.checkItems_cases items with
        ⟨hmap, ⟨hrun, hcheck⟩ | ⟨hrun, reason, hcheck⟩⟩ | ⟨stops, hmap, hrun, hcheck⟩
      · exact .inl ⟨by rw [hmap]; rfl, .inl ⟨hrun, by rw [hcheck]⟩⟩
      · refine .inl ⟨by rw [hmap]; rfl, .inr ⟨hrun, reason, ?_⟩⟩
        rw [hcheck]
        rfl
      · simp only [hmap, hcheck, Option.any_some]
        by_cases hnegative : stops.any (· < 0) = true
        · have hall : stops.all (0 ≤ ·) = false := by simpa using hnegative
          exact .inl ⟨by simp [hall], .inr ⟨hrun, _, if_pos hnegative⟩⟩
        · have hall : stops.all (0 ≤ ·) = true := by simpa using hnegative
          rw [if_neg hnegative, hall, Bool.true_and]
          cases nonDecreasing stops with
          | true => exact .inr ⟨rfl, stops, rfl⟩
          | false => exact .inl ⟨rfl, .inr ⟨hrun, _, rfl⟩⟩

theorem checkInteger_cases (d : Draft) (key : Key) :
    ((d key).isInteger = false ∧ ∃ reason, d.checkInteger key = d.refuse key reason) ∨
      ∃ n, (d key).isInteger = true ∧ (∀ least, (d key).isAtLeast least = decide (least ≤ n)) ∧
        d.checkInteger key = .ok n := by
  unfold checkInteger
  cases d key with
  | int n => exact .inr ⟨n, rfl, fun _ => rfl, rfl⟩
  | null | bool | float | text | bytes | list | table => exact .inl ⟨rfl, _, rfl⟩

theorem checkSwitch_cases (d : Draft) (key : Key) :
    ((d key).isSwitch = false ∧ ∃ reason, d.checkSwitch key = d.refuse key reason) ∨
      ((d key).isSwitch = true ∧ ∃ b, d.checkSwitch key = .ok b) := by
  unfold checkSwitch
  cases d key with
  | bool b => exact .inr ⟨rfl, b, rfl⟩
  | null | int | float | text | bytes | list | table => exact .inl ⟨rfl, _, rfl⟩

/-! ## One test after the other -/

namespace Ends

variable {d : Draft} {key : Key} {passes : Value → Bool} {rest : List (Key × (Value → Bool))}
  {result : Except Rejection Settings}

theorem pass (hpasses : passes (d key) = true) (h : d.Ends rest result) :
    d.Ends ((key, passes) :: rest) result := by
  have hfirst : d.firstFailed ((key, passes) :: rest) = d.firstFailed rest := if_pos hpasses
  cases h with
  | accepted hrest => exact .accepted (hfirst.trans hrest)
  | infinite hrest hreaches => exact .infinite (hfirst.trans hrest) hreaches
  | refused hrest hfinite => exact .refused (hfirst.trans hrest) hfinite

theorem firstFailed_of_fails (hfails : passes (d key) = false) :
    d.firstFailed ((key, passes) :: rest) = some key :=
  if_neg (by simp [hfails])

theorem refuse {α : Type} {reason : String} {next : α → Except Rejection Settings}
    (hfails : passes (d key) = false)
    (hfinite : ¬ (key = .tabStops ∧ (d .tabStops).ReachesInfinity)) :
    d.Ends ((key, passes) :: rest) (d.refuse key reason >>= next) :=
  .refused (firstFailed_of_fails hfails) hfinite

theorem style {next : Style → Except Rejection Settings} (h : ∀ style, d.Ends rest (next style)) :
    d.Ends ((.commentStyle, Value.isStyleName) :: rest) (d.checkStyle >>= next) := by
  rcases d.checkStyle_cases with ⟨hfails, reason, hcheck⟩ | ⟨hpasses, style, hcheck⟩
  · rw [hcheck]
    exact .refuse hfails (by simp)
  · rw [hcheck]
    exact .pass hpasses (h style)

theorem stops {next : List Int → Except Rejection Settings}
    (h : ∀ stops, d.Ends rest (next stops)) :
    d.Ends ((.tabStops, Value.isColumnList) :: rest) (d.checkStops >>= next) := by
  rcases d.checkStops_cases with
    ⟨hfails, ⟨hreaches, hcheck⟩ | ⟨hfinite, reason, hcheck⟩⟩ | ⟨hpasses, stops, hcheck⟩
  · rw [hcheck]
    exact .infinite (firstFailed_of_fails hfails) hreaches
  · rw [hcheck]
    exact .refuse hfails (by simp [hfinite])
  · rw [hcheck]
    exact .pass hpasses (h stops)

theorem integer (hkey : key ≠ .tabStops) {next : Int → Except Rejection Settings}
    (h : ∀ n, (∀ least, (d key).isAtLeast least = decide (least ≤ n)) → d.Ends rest (next n)) :
    d.Ends ((key, Value.isInteger) :: rest) (d.checkInteger key >>= next) := by
  rcases d.checkInteger_cases key with ⟨hfails, reason, hcheck⟩ | ⟨n, hpasses, hleast, hcheck⟩
  · rw [hcheck]
    exact .refuse hfails (by simp [hkey])
  · rw [hcheck]
    exact .pass hpasses (h n hleast)

theorem atLeast (hkey : key ≠ .tabStops) {n least : Int} {reason : String}
    (hn : ∀ least, (d key).isAtLeast least = decide (least ≤ n)) (h : d.Ends rest result) :
    d.Ends ((key, Value.isAtLeast least) :: rest)
      (if n < least then d.refuse key reason >>= fun _ : PUnit => result else result) := by
  by_cases hless : n < least
  · rw [if_pos hless]
    exact .refuse (by simp [hn, hless]) (by simp [hkey])
  · rw [if_neg hless]
    exact .pass (by simp [hn, Int.not_lt.mp hless]) h

theorem switch (hkey : key ≠ .tabStops) {next : Bool → Except Rejection Settings}
    (h : ∀ b, d.Ends rest (next b)) :
    d.Ends ((key, Value.isSwitch) :: rest) (d.checkSwitch key >>= next) := by
  rcases d.checkSwitch_cases key with ⟨hfails, reason, hcheck⟩ | ⟨hpasses, b, hcheck⟩
  · rw [hcheck]
    exact .refuse hfails (by simp [hkey])
  · rw [hcheck]
    exact .pass hpasses (h b)

end Ends

/-- The check is decided by the first test that fails. -/
theorem check_ends (d : Draft) : d.Ends tests d.check := by
  refine .style fun style => .stops fun stops => ?_
  refine .integer (by decide) fun width hwidth => .integer (by decide) fun column hcolumn => ?_
  refine .atLeast (by decide) hwidth (.atLeast (by decide) hcolumn ?_)
  refine .switch (by decide) fun colon => .switch (by decide) fun tab => ?_
  exact .switch (by decide) fun newline => .accepted rfl

end Draft

/-! ## Mappings of options -/

/-- Options by names, of which no two are the same. -/
structure Mapping where
  entries : List (Text × Value)
  distinct : (entries.map (·.1)).Nodup

namespace Mapping

/-- The entries of a list with texts for names. -/
def withTexts (entries : List (Text × Value)) : List (Value × Value) :=
  entries.map fun entry => (.text entry.1, entry.2)

def named (m : Mapping) : List (Value × Value) :=
  withTexts m.entries

/-- An option that is not in the mapping has the value it has by default. -/
def given (m : Mapping) : Draft :=
  fun key => (m.entries.lookup key.name).getD (({} : Settings).draft key)

/-- The entry that is found wrong first: names come before values. -/
def firstWrong (m : Mapping) : Option (Text × Value) :=
  (m.entries.find? fun entry => (Key.ofValue? (.text entry.1)).isNone).or
    ((m.given.firstFailed Draft.tests).map fun key => (key.name, m.given key))

end Mapping

theorem Draft.exists_of_firstFailed {d : Draft} {key : Key} {made : List (Key × (Value → Bool))}
    (h : d.firstFailed made = some key) :
    ∃ passes, (key, passes) ∈ made ∧ passes (d key) = false := by
  induction made with
  | nil => cases h
  | cons test rest ih =>
      rw [firstFailed] at h
      split at h
      · obtain ⟨passes, hmem, hfails⟩ := ih h
        exact ⟨passes, List.mem_cons_of_mem _ hmem, hfails⟩
      · next hfails =>
        obtain rfl := Option.some.inj h
        exact ⟨test.2, List.mem_cons_self, by simpa using hfails⟩

/-- The options that a mapping leaves out pass their tests. -/
theorem Draft.default_passes : ∀ test ∈ tests, test.2 (({} : Settings).draft test.1) = true :=
  List.all_eq_true.mp rfl

namespace Mapping

/-- What is found wrong stands in the mapping. -/
theorem mem_of_firstWrong {m : Mapping} {entry : Text × Value} (h : m.firstWrong = some entry) :
    entry ∈ m.entries := by
  rcases Option.or_eq_some_iff.mp h with hname | ⟨-, hvalue⟩
  · exact List.mem_of_find?_eq_some hname
  obtain ⟨key, hfirst, rfl⟩ := Option.map_eq_some_iff.mp hvalue
  obtain ⟨passes, htest, hfails⟩ := Draft.exists_of_firstFailed hfirst
  cases hlookup : m.entries.lookup key.name with
  | none =>
      have hdefault : m.given key = ({} : Settings).draft key := by rw [given, hlookup]; rfl
      have hpasses : passes (({} : Settings).draft key) = true := Draft.default_passes _ htest
      rw [hdefault, hpasses] at hfails
      cases hfails
  | some value =>
      have hgiven : m.given key = value := by rw [given, hlookup]; rfl
      obtain ⟨front, back, hentries, -⟩ := List.lookup_eq_some_iff.mp hlookup
      rw [hgiven, hentries]
      simp

theorem collapse_named (m : Mapping) : Value.collapse m.named = m.named := by
  apply Value.collapse_of_pairwise
  rw [named, withTexts, List.pairwise_map]
  have hdistinct := List.pairwise_map.mp m.distinct
  exact hdistinct.imp fun hne => by simpa [Value.sameKey_text] using hne

end Mapping

theorem lookup_eq_none_of_notMem {name : Text} {entries : List (Text × Value)}
    (h : name ∉ entries.map (·.1)) : entries.lookup name = none := by
  rw [List.lookup_eq_none_iff]
  intro entry hentry
  have hne : name ≠ entry.1 := fun heq => h (heq ▸ List.mem_map_of_mem hentry)
  simpa using hne

namespace Draft

/-- An option that is set first has its value if it is not set again. -/
theorem lookup_set {name : Text} {key : Key} {rest : List (Text × Value)}
    (hname : Key.ofValue? (.text name) = some key) (hnew : name ∉ rest.map (·.1)) (d : Draft)
    (value : Value) (other : Key) :
    (rest.lookup other.name).getD (d.set key value other) =
      (((name, value) :: rest).lookup other.name).getD (d other) := by
  obtain rfl := Key.name_of_ofValue? hname
  by_cases hother : other = key
  · subst hother
    simp [lookup_eq_none_of_notMem hnew, set]
  · have hne : (other.name == key.name) = false := by
      simpa using fun heq => hother (Key.name_injective heq)
    simp [set, hother, List.lookup_cons, hne]

/-- Options are written into a draft if there is none with a name that is no option. -/
theorem setAll_withTexts {entries : List (Text × Value)} (h : (entries.map (·.1)).Nodup)
    (d : Draft) :
    d.setAll (Mapping.withTexts entries) =
      match entries.find? fun entry => (Key.ofValue? (.text entry.1)).isNone with
      | some entry => .error (.refusal entry.1 entry.2 "unrecognised option")
      | none => .ok fun key => (entries.lookup key.name).getD (d key) := by
  induction entries generalizing d with
  | nil => rfl
  | cons entry rest ih =>
      obtain ⟨name, value⟩ := entry
      rw [List.map_cons, List.nodup_cons] at h
      rw [Mapping.withTexts, List.map_cons, setAll, ← Mapping.withTexts, List.find?_cons]
      cases hname : Key.ofValue? (.text name) with
      | none => rfl
      | some key =>
          simp only [Option.isNone_some, ih h.2, lookup_set hname h.1]

end Draft

/-! ## How a mapping is received -/

/-- How the reading of a mapping ends. -/
inductive Mapping.Ends (m : Mapping) : Except Rejection Settings → Prop where
  | accepted {s : Settings} : m.firstWrong = none → s.Valid → Ends m (.ok s)
  | infinite {value : Value} :
      m.firstWrong = some (Key.tabStops.name, value) → value.ReachesInfinity →
      Ends m (.error .infiniteStop)
  | refused {option : Text} {value : Value} {reason : String} :
      m.firstWrong = some (option, value) →
      ¬ (option = Key.tabStops.name ∧ value.ReachesInfinity) →
      Ends m (.error (.refusal option value reason))

/-- Names that are no options are refused, and then the values are checked. -/
theorem ofMapping_named (m : Mapping) :
    ofMapping m.named =
      match m.entries.find? fun entry => (Key.ofValue? (.text entry.1)).isNone with
      | some entry => .error (.refusal entry.1 entry.2 "unrecognised option")
      | none => m.given.check := by
  rw [ofMapping, update, m.collapse_named, Mapping.named, Draft.setAll_withTexts m.distinct]
  cases m.entries.find? fun entry => (Key.ofValue? (.text entry.1)).isNone <;> rfl

/-- A mapping is received by the entry of it that is found wrong first. -/
theorem ofMapping_ends (m : Mapping) : m.Ends (ofMapping m.named) := by
  rw [ofMapping_named]
  cases hname : m.entries.find? fun entry => (Key.ofValue? (.text entry.1)).isNone with
  | some entry =>
      have hfirst : m.firstWrong = some entry := by rw [Mapping.firstWrong, hname]; rfl
      refine .refused hfirst ?_
      rintro ⟨hoption, -⟩
      have hunknown := List.find?_some hname
      rw [hoption, Key.ofValue?_name] at hunknown
      cases hunknown
  | none =>
      have hfirst : m.firstWrong =
          (m.given.firstFailed Draft.tests).map fun key => (key.name, m.given key) := by
        rw [Mapping.firstWrong, hname]
        rfl
      have hends := Draft.check_ends m.given
      dsimp only
      cases hcheck : m.given.check with
      | ok s =>
          rw [hcheck] at hends
          cases hends with
          | accepted hpassed =>
              exact .accepted (by rw [hfirst, hpassed]; rfl) (Draft.check_valid hcheck)
      | error e =>
          rw [hcheck] at hends
          cases hends with
          | infinite hfailed hreaches => exact .infinite (by rw [hfirst, hfailed]; rfl) hreaches
          | refused hfailed hfinite =>
              refine .refused (by rw [hfirst, hfailed]; rfl) ?_
              rintro ⟨hoption, hreaches⟩
              obtain rfl := Key.name_injective hoption
              exact hfinite ⟨rfl, hreaches⟩

/-- A mapping gives valid settings or is refused for one of its entries, unless the entry that is
found wrong first runs to infinity as tab stops or cannot be quoted.  It gives settings if nothing
is found wrong, and what is reported is what is found wrong first. -/
theorem ofMapping_valid_or_fault_iff (m : Mapping) :
    (((∃ s, ofMapping m.named = .ok s ∧ s.Valid) ∨
        ∃ f, ofMapping m.named = .error (.fault f) ∧ (f.option, f.value) ∈ m.entries) ↔
      ∀ option value, m.firstWrong = some (option, value) →
        value.isWritable = true ∧ ¬ (option = Key.tabStops.name ∧ value.ReachesInfinity)) ∧
    ((∃ s, ofMapping m.named = .ok s) ↔ m.firstWrong = none) ∧
    (∀ f, ofMapping m.named = .error (.fault f) → m.firstWrong = some (f.option, f.value)) ∧
    (ofMapping m.named = .error .infiniteStop ↔
      ∃ value, m.firstWrong = some (Key.tabStops.name, value) ∧ value.ReachesInfinity) ∧
    (ofMapping m.named = .error .unwritable ↔
      ∃ option value, m.firstWrong = some (option, value) ∧ value.isWritable = false ∧
        ¬ (option = Key.tabStops.name ∧ value.ReachesInfinity)) := by
  have hends := ofMapping_ends m
  generalize ofMapping m.named = result at hends
  cases hends with
  | accepted hfirst hvalid => simp [hfirst, hvalid]
  | infinite hfirst hreaches => simp [hfirst, hreaches]
  | @refused option value reason hfirst hfinite =>
      have hmem := Mapping.mem_of_firstWrong hfirst
      rw [Rejection.refusal]
      cases hwritable : value.isWritable with
      | true => simpa [hfirst, hwritable, hmem] using hfinite
      | false => simpa [hfirst, hwritable] using hfinite

/-- A tab stop at infinity is the first thing found wrong, and it is not reported as such. -/
theorem ofMapping_infinite_stop :
    ¬ ((∃ s, ofMapping [(.text Key.tabStops.name, .list [.float (.infinite false)])] = .ok s ∧
          s.Valid) ∨
        ∃ f, ofMapping [(.text Key.tabStops.name, .list [.float (.infinite false)])] =
          .error (.fault f) ∧
            (f.option, f.value) ∈ [(Key.tabStops.name, .list [.float (.infinite false)])]) := by
  intro h
  have hreported := (ofMapping_valid_or_fault_iff
    ⟨[(Key.tabStops.name, .list [.float (.infinite false)])], by decide⟩).1.mp h
  have hfinite := (hreported _ _ rfl).2
  exact hfinite ⟨rfl, _, rfl, [], false, [], rfl, by simp⟩

end Settings
end AsmColumns
