import AsmColumns.Proofs.Session.Reachable
import AsmColumns.Proofs.Settings.Verdict

/-!
# Settings and their options

Settings are written out as a mapping of all their options.  Options come in in many forms, a style
in any spelling and tab stops as anything that can be gone through, and go out in one.  What goes
out is read back as the settings it came from, and options that were not given go out as they are by
default.  So a session that is given its own settings once more stays as it is, even if they cannot
be written out and the change fails.
-/

namespace AsmColumns

open Comment (Style Tracker)

namespace Settings

/-! ## Reading back -/

/-- The options of settings with their names. -/
def mapping (s : Settings) : Mapping where
  entries := Key.all.map fun key => (key.name, s.draft key)
  distinct := by
    rw [List.map_map]
    exact (by decide : (Key.all.map Key.name).Nodup)

theorem named_mapping (s : Settings) : s.mapping.named = s.toMapping := by
  rw [Mapping.named, Mapping.withTexts, mapping, List.map_map]
  rfl

/-- All the options of settings take the place of whatever was there. -/
theorem update_toMapping (s t : Settings) : s.update t.toMapping = t.draft.check := by
  have hdraft : (fun key => (t.mapping.entries.lookup key.name).getD (s.draft key)) = t.draft := by
    funext key
    cases key <;> rfl
  rw [update, ← named_mapping, Mapping.collapse_named, Mapping.named,
    Draft.setAll_withTexts t.mapping.distinct, hdraft]
  rfl

theorem valid_iff_update_toMapping {s t : Settings} :
    t.Valid ↔ s.update t.toMapping = .ok t := by
  rw [update_toMapping]
  exact ⟨check_draft, Draft.check_valid⟩

/-! ## Options that are left out -/

namespace Draft

variable {d : Draft} {s t : Settings}

theorem Gives.style_eq (h : d.Gives s) (hd : d .commentStyle = t.draft .commentStyle) :
    s.style = t.style := by
  have hcheck : d.checkStyle = .ok t.style := by
    have hname : Style.ofName? (d .commentStyle).asName = some t.style := by
      rw [hd]
      exact Style.ofName?_name t.style
    rw [checkStyle, hname]
  exact Except.ok.inj (h.style.symm.trans hcheck)

theorem Gives.tabStops_eq (h : d.Gives s) (hd : d .tabStops = t.draft .tabStops) :
    s.tabStops = t.tabStops := by
  have hcheck := h.tabStops
  have hitems : (d .tabStops).items? = some (t.tabStops.map .int) := by rw [hd]; rfl
  simp only [checkStops, hitems, checkItems_int] at hcheck
  split at hcheck
  · cases hcheck
  · split at hcheck
    · exact (Except.ok.inj hcheck).symm
    · cases hcheck

theorem eq_of_checkInteger {key : Key} {n m : Int} (hd : d key = .int m)
    (h : d.checkInteger key = .ok n) : n = m := by
  rw [checkInteger, hd] at h
  exact (Except.ok.inj h).symm

theorem eq_of_checkSwitch {key : Key} {a b : Bool} (hd : d key = .bool b)
    (h : d.checkSwitch key = .ok a) : a = b := by
  rw [checkSwitch, hd] at h
  exact (Except.ok.inj h).symm

/-- A value that settings have in their draft is what comes out. -/
theorem Gives.draft_eq (h : d.Gives s) {key : Key} (hd : d key = t.draft key) :
    s.draft key = t.draft key := by
  cases key with
  | commentStyle => exact congrArg (Value.text ·.name) (h.style_eq hd)
  | tabStops => exact congrArg (Value.list <| ·.map .int) (h.tabStops_eq hd)
  | tabWidth => exact congrArg Value.int (eq_of_checkInteger hd h.tabWidth)
  | commentColumn => exact congrArg Value.int (eq_of_checkInteger hd h.commentColumn)
  | colonAfterLabel => exact congrArg Value.bool (eq_of_checkSwitch hd h.colonAfterLabel)
  | tabAfterOperation => exact congrArg Value.bool (eq_of_checkSwitch hd h.tabAfterOperation)
  | newlineAfterLabel => exact congrArg Value.bool (eq_of_checkSwitch hd h.newlineAfterLabel)

end Draft

theorem gives_of_ofMapping {m : Mapping} {s : Settings} (h : ofMapping m.named = .ok s) :
    m.given.Gives s := by
  rw [ofMapping_named] at h
  split at h
  · cases h
  · exact Draft.gives_of_check h

theorem Mapping.given_of_notMem {m : Mapping} {key : Key}
    (h : key.name ∉ m.entries.map (·.1)) : m.given key = ({} : Settings).draft key := by
  rw [given, lookup_eq_none_of_notMem h]
  rfl

end Settings

/-! ## Sessions -/

namespace Session

theorem Coherent.activateStyle_self {s : Session} (h : s.Coherent) :
    s.activateStyle s.settings.style = s := by
  have hstyle : s.tracker.convention.style = s.settings.style := by
    rw [h.convention_eq, style_ofStyle]
  have htracker : s.tracker.activate s.settings.style = s.tracker := if_pos hstyle
  rw [Session.activateStyle, htracker, hstyle, ← h.reader_eq]

theorem Coherent.configure_toMapping {s : Session} (h : s.Coherent) :
    s.configure s.settings.toMapping =
      (if s.settings.isWritable then .ok s.settings else .error .unwritable, s) := by
  rw [Session.configure, Settings.valid_iff_update_toMapping.mp h.valid]
  dsimp only
  rw [h.activateStyle_self]

end Session

namespace Settings

/-- Settings are valid if and only if they are read back from the options they are written as.  The
settings of a mapping are written as options that give the same options again, those that the
mapping leaves out as they are by default; and a session with these settings that is given these
options stays as it is, whether it can note them or fails. -/
theorem ofMapping_toMapping (s : Settings) :
    (s.Valid ↔ ofMapping s.toMapping = .ok s) ∧
      ∀ m : Mapping, ofMapping m.named = .ok s →
        (ofMapping s.toMapping).map toMapping = .ok s.toMapping ∧
        (∀ key : Key, key.name ∉ m.entries.map (·.1) →
          s.draft key = ({} : Settings).draft key) ∧
        ∀ session : Session, session.Reachable → session.settings = s →
          session.configure s.toMapping =
            (if s.isWritable then .ok s else .error .unwritable, session) := by
  refine ⟨valid_iff_update_toMapping, ?_⟩
  intro m hm
  have hback : ofMapping s.toMapping = .ok s := valid_iff_update_toMapping.mp (update_valid hm)
  refine ⟨by rw [hback]; rfl, ?_, ?_⟩
  · intro key hkey
    exact (gives_of_ofMapping hm).draft_eq (Mapping.given_of_notMem hkey)
  · rintro session hreachable rfl
    exact hreachable.coherent.configure_toMapping

/-- A style in another spelling, and tab stops as the characters of a text. -/
def respelled : Mapping where
  entries :=
    [("commentStyle".toList, .text "LINE-Hash".toList), ("tabStops".toList, .text "48".toList)]
  distinct := by decide

theorem ofMapping_toMapping_respelled :
    let s : Settings := { style := .lineHash, tabStops := [4, 8] }
    ofMapping respelled.named = .ok s ∧ (ofMapping s.toMapping).map toMapping = .ok s.toMapping ∧
      s.draft .tabWidth = .int 8 ∧
      (Session.ofSettings s).configure s.toMapping = (.ok s, Session.ofSettings s) := by
  intro s
  have hm : ofMapping respelled.named = .ok s := rfl
  obtain ⟨hfixed, habsent, hkept⟩ := (ofMapping_toMapping s).2 respelled hm
  have hsession := hkept _ (Session.reachable_ofSettings (update_valid hm)) rfl
  have hwritable : s.isWritable = true := by decide +kernel
  rw [if_pos hwritable] at hsession
  exact ⟨hm, hfixed, habsent .tabWidth (by decide), hsession⟩

end Settings
end AsmColumns
