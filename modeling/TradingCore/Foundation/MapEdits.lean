import TradingCore.Foundation.Runs

/-! An ordered map under a list of changes, each of which sets or removes one
entry. The last change of a key decides what the map holds there. -/

universe u v

namespace MapEdits

open Std

variable {κ : Type u} {ν : Type v} {cmp : κ → κ → Ordering} [TransCmp cmp] [LawfulEqCmp cmp] [DecidableEq κ]

def edit (map : ExtTreeMap κ ν cmp) (change : κ × Option ν) : ExtTreeMap κ ν cmp :=
  match change.2 with
  | some value => map.insert change.1 value
  | none => map.erase change.1

def lastChange (key : κ) (changes : List (κ × Option ν)) : Option (Option ν) :=
  (changes.filter fun change => change.1 = key).getLast?.map (·.2)

/-- The last change of every key gives back what the map had there. -/
def Restores (map : ExtTreeMap κ ν cmp) (changes : List (κ × Option ν)) : Prop :=
  ∀ key value, lastChange key changes = some value → value = map[key]?

theorem getElem?_insert (map : ExtTreeMap κ ν cmp) (key other : κ) (value : ν) :
    (map.insert key value)[other]? = if key = other then some value else map[other]? := by
  rw [ExtTreeMap.getElem?_insert]
  simp only [LawfulEqCmp.compare_eq_iff_eq]

omit [LawfulEqCmp cmp] [DecidableEq κ] in
theorem getElem?_edit_self (map : ExtTreeMap κ ν cmp) (change : κ × Option ν) :
    (edit map change)[change.1]? = change.2 := by
  rw [edit]
  split
  next set => rw [ExtTreeMap.getElem?_insert_self, set]
  next removed => rw [ExtTreeMap.getElem?_erase_self, removed]

omit [DecidableEq κ] in
theorem getElem?_edit_other (map : ExtTreeMap κ ν cmp) {change : κ × Option ν} {key : κ} (other : change.1 ≠ key) :
    (edit map change)[key]? = map[key]? := by
  have different : ¬ cmp change.1 key = .eq := fun same => other (LawfulEqCmp.eq_of_compare same)
  rw [edit]
  split
  next => rw [ExtTreeMap.getElem?_insert, if_neg different]
  next => rw [ExtTreeMap.getElem?_erase, if_neg different]

theorem getElem?_edits (map : ExtTreeMap κ ν cmp) (changes : List (κ × Option ν)) (key : κ) :
    (Runs.after edit map changes)[key]? = (lastChange key changes).getD map[key]? := by
  induction changes generalizing map with
  | nil => rfl
  | cons change rest ih =>
    rw [Runs.after_cons, ih, lastChange, lastChange]
    by_cases own : change.1 = key
    · subst own
      rw [getElem?_edit_self, List.filter_cons_of_pos (by simp), List.getLast?_cons]
      cases (rest.filter fun other => other.1 = change.1).getLast? <;> rfl
    · rw [getElem?_edit_other map own, List.filter_cons_of_neg (by simpa using own)]

theorem edits_unchanged_iff (map : ExtTreeMap κ ν cmp) (changes : List (κ × Option ν)) :
    Runs.after edit map changes = map ↔ Restores map changes := by
  constructor
  · intro unchanged key value last
    have held := getElem?_edits map changes key
    rw [unchanged, last] at held
    exact held.symm
  · intro restores
    apply ExtTreeMap.ext_getElem?
    intro key
    rw [getElem?_edits]
    cases last : lastChange key changes with
    | none => rfl
    | some value => exact restores key value last

end MapEdits
