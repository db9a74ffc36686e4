import AsmColumns.Command.Run

/-!
# Commands on a console that may refuse

What a command would show is what it prints on a console that takes every item.  On any other
console it does the same if all of that is taken.  If an item is refused, the command ends at the
first one that is, with the directory as it was before the command or as the command leaves it
otherwise.
-/

namespace AsmColumns
namespace Command

variable {host : Host} {dir : Directory}

namespace Host

/-- The host with a console that takes every item. -/
def accepting (host : Host) : Host :=
  { host with refusal? := fun _ => none }

/-- The console takes all of these items. -/
def Prints (host : Host) (items : List Item) : Prop :=
  ∀ item ∈ items, host.refusal? item = none

/-- Why the console does not take these items: the first refusal among them. -/
def firstRefusal? (host : Host) (items : List Item) : Option Refusal :=
  items.findSome? host.refusal?

theorem firstRefusal?_eq_none_iff {items : List Item} :
    host.firstRefusal? items = none ↔ host.Prints items :=
  List.findSome?_eq_none_iff

theorem prints_nil (host : Host) : host.Prints [] := nofun

theorem prints_standard (items : List Item) : standard.Prints items :=
  fun _ _ => rfl

@[simp] theorem printing_accepting (start : Directory) (items : List Item) (rest : Outcome) :
    host.accepting.printing start items rest = { rest with printed := items ++ rest.printed } := by
  induction items with
  | nil => rfl
  | cons item later ih =>
      rw [printing, ih]
      rfl

end Host

/-! ## Outcomes that are cut off -/

/-- What becomes of an outcome on the console of a host: nothing if its items are taken, and an end
at the first refusal if they are not. -/
inductive Outcome.CutBy (host : Host) (dir : Directory) (full : Outcome) : Outcome → Prop where
  | whole : host.Prints full.printed → CutBy host dir full full
  | refused {outcome : Outcome} {r : Refusal} : host.firstRefusal? full.printed = some r →
      outcome.ending = .failed (.console r) →
      outcome.directory = dir ∨ outcome.directory = full.directory → CutBy host dir full outcome

open Outcome (CutBy)

theorem cutBy_of_silent {full : Outcome} (h : full.printed = []) : CutBy host dir full full := by
  refine .whole ?_
  rw [h]
  exact host.prints_nil

/-- Printing before the rest of a command, from the directory before the command or behind it. -/
theorem cutBy_printing {start : Directory} {full rest : Outcome} (h : CutBy host dir full rest)
    (hstart : start = dir ∨ start = full.directory) (items : List Item) :
    CutBy host dir (host.accepting.printing start items full)
      (host.printing start items rest) := by
  rw [Host.printing_accepting]
  induction items with
  | nil => exact h
  | cons item later ih =>
      rw [Host.printing]
      cases hitem : host.refusal? item with
      | some r =>
          refine .refused (r := r) ?_ rfl hstart
          simp [Host.firstRefusal?, hitem]
      | none =>
          generalize host.printing start later rest = outcome at ih
          cases ih with
          | whole hprints => exact .whole (List.forall_mem_cons.mpr ⟨hitem, hprints⟩)
          | refused hrefusal hending hdirectory =>
              refine .refused ?_ hending hdirectory
              simpa [Host.firstRefusal?, hitem] using hrefusal

theorem cutBy_items {start last : Directory} (hstart : start = dir ∨ start = last)
    (items : List Item) (ending : Ending) :
    CutBy host dir (host.accepting.printing start items { ending, directory := last })
      (host.printing start items { ending, directory := last }) :=
  cutBy_printing (cutBy_of_silent rfl) hstart items

theorem cutBy_stopped (host : Host) (dir : Directory) (request : Request)
    (f : Settings.LoadFault) :
    CutBy host dir (stopped host.accepting dir request f) (stopped host dir request f) := by
  have hexit : ∀ item : Item, CutBy host dir
      (host.accepting.printing dir [item] { ending := .exit exitError, directory := dir })
      (host.printing dir [item] { ending := .exit exitError, directory := dir }) :=
    fun item => cutBy_items (.inl rfl) [item] _
  cases f with
  | rejected rejection =>
      cases rejection with
      | fault => exact hexit _
      | infiniteStop | unwritable => exact cutBy_of_silent rfl
  | unreadable fault =>
      cases fault with
      | nullCharacter => exact cutBy_of_silent rfl
      | notFound | notDirectory | isDirectory => exact hexit _
  | malformed => exact hexit _
  | mixedKeys | notText | brokenOff => exact cutBy_of_silent rfl

theorem cutBy_runShow (host : Host) (dir : Directory) (work : Work) :
    CutBy host dir (runShow host.accepting dir work) (runShow host dir work) := by
  unfold runShow
  cases Item.lineTable work.name work.reports with
  | error e => exact cutBy_of_silent rfl
  | ok table => exact cutBy_items (.inl rfl) ..

theorem cutBy_writeLayout (host : Host) (dir : Directory) (request : Request) (work : Work) :
    CutBy host dir (writeLayout host.accepting dir request work)
      (writeLayout host dir request work) := by
  unfold writeLayout
  split
  · cases replaceFile dir work.path (work.source.close work.laidOut) with
    | error message => exact cutBy_items (.inl rfl) ..
    | ok written => exact cutBy_items (.inr rfl) ..
  · exact cutBy_of_silent rfl

/-- A command on the console of a host, against the same command on one that takes every item. -/
theorem cutBy_run (host : Host) (dir : Directory) (request : Request) :
    CutBy host dir (request.run host.accepting dir) (request.run host dir) := by
  have hprepare : request.prepare host.accepting dir = request.prepare host dir := rfl
  rw [Request.run, Request.run, hprepare]
  cases request.prepare host dir with
  | error f => exact cutBy_stopped host dir request f
  | ok prepared =>
      dsimp only
      cases ((prepared.1.report (Source.ofText prepared.2).body).2.layout
        (Source.ofText prepared.2).body).1 with
      | error f => exact cutBy_of_silent rfl
      | ok laid =>
          cases request.verb with
          | showLines => exact cutBy_runShow ..
          | check => exact cutBy_items (.inl rfl) ..
          | indent => exact cutBy_printing (cutBy_writeLayout ..) (.inl rfl) _

/-! ## What a request shows -/

/-- The items that a request shows on a console that takes every item. -/
def Request.shown (request : Request) (host : Host) (dir : Directory) : List Item :=
  (request.run host.accepting dir).printed

variable {request : Request}

theorem run_of_prints (h : host.Prints (request.shown host dir)) :
    request.run host dir = request.run host.accepting dir := by
  have hcut := cutBy_run host dir request
  generalize request.run host dir = outcome at hcut ⊢
  cases hcut with
  | whole => rfl
  | refused hrefusal => cases (Host.firstRefusal?_eq_none_iff.mpr h).symm.trans hrefusal

theorem ending_of_firstRefusal? {r : Refusal}
    (h : host.firstRefusal? (request.shown host dir) = some r) :
    (request.run host dir).ending = .failed (.console r) := by
  have hcut := cutBy_run host dir request
  generalize request.run host dir = outcome at hcut ⊢
  cases hcut with
  | whole hprints => cases (Host.firstRefusal?_eq_none_iff.mpr hprints).symm.trans h
  | refused hrefusal hending =>
      obtain rfl := Option.some.inj (h.symm.trans hrefusal)
      exact hending

/-- A request that leaves the directory as it is on a console that takes every item does so on
every console. -/
theorem directory_run_of_accepting (h : (request.run host.accepting dir).directory = dir) :
    (request.run host dir).directory = dir := by
  have hcut := cutBy_run host dir request
  generalize request.run host dir = outcome at hcut ⊢
  cases hcut with
  | whole => exact h
  | refused _ _ hdirectory =>
      rw [h, or_self] at hdirectory
      exact hdirectory

end Command
end AsmColumns
