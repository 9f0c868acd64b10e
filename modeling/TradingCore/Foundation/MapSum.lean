import Mathlib.Algebra.BigOperators.Group.List.Basic
import Mathlib.Algebra.Order.BigOperators.Group.List
import Mathlib.Data.List.Nodup
import Mathlib.Tactic.Abel

/-! Sums over the entries of an ordered map, and how they move when one entry
is added or overwritten. -/

universe u v w

namespace MapSum

open Std

variable {κ : Type u} {ν : Type v} {M : Type w} {cmp : κ → κ → Ordering} [TransCmp cmp] [LawfulEqCmp cmp]

def total [AddCommMonoid M] (f : κ → ν → M) (map : ExtTreeMap κ ν cmp) : M :=
  (map.toList.map (fun entry => f entry.1 entry.2)).sum

theorem nodup_toList (map : ExtTreeMap κ ν cmp) : map.toList.Nodup :=
  map.ordered_keys_toList.imp fun {first second} ordered same => by
    subst same
    cases (show cmp first.1 first.1 = .eq from ReflCmp.compare_self).symm.trans ordered

/-- A map's entries are the one at a held key and those of the map without it. -/
theorem toList_perm_cons_erase {map : ExtTreeMap κ ν cmp} {key : κ} {value : ν} (held : map[key]? = some value) :
    map.toList.Perm ((key, value) :: (map.erase key).toList) := by
  refine (List.perm_ext_iff_of_nodup (nodup_toList map) ?_).mpr ?_
  · refine List.nodup_cons.mpr ⟨?_, nodup_toList _⟩
    rw [ExtTreeMap.mem_toList_iff_getElem?_eq_some]
    simp
  · intro ⟨other, found⟩
    simp only [List.mem_cons, ExtTreeMap.mem_toList_iff_getElem?_eq_some, Prod.mk.injEq, ExtTreeMap.getElem?_erase,
      LawfulEqCmp.compare_eq_iff_eq]
    by_cases same : key = other
    · subst same
      simp [held, eq_comm]
    · simp [same, Ne.symm same]

private theorem total_erase [AddCommMonoid M] (f : κ → ν → M) {map : ExtTreeMap κ ν cmp} {key : κ} {value : ν}
    (held : map[key]? = some value) : total f map = f key value + total f (map.erase key) := by
  simpa only [total, List.map_cons, List.sum_cons] using
    ((toList_perm_cons_erase held).map (fun entry => f entry.1 entry.2)).sum_eq

theorem erase_insert (map : ExtTreeMap κ ν cmp) (key : κ) (value : ν) :
    (map.insert key value).erase key = map.erase key := by
  refine ExtTreeMap.ext_getElem? fun other => ?_
  simp only [ExtTreeMap.getElem?_erase, ExtTreeMap.getElem?_insert]
  split <;> rfl

theorem total_insert [AddCommMonoid M] (f : κ → ν → M) (map : ExtTreeMap κ ν cmp) (key : κ) (value : ν) :
    total f (map.insert key value) = f key value + total f (map.erase key) := by
  have held : (map.insert key value)[key]? = some value := ExtTreeMap.getElem?_insert_self
  rw [total_erase f held, erase_insert]

theorem total_insert_new [AddCommMonoid M] (f : κ → ν → M) {map : ExtTreeMap κ ν cmp} {key : κ} (value : ν)
    (absent : key ∉ map) : total f (map.insert key value) = f key value + total f map := by
  have unchanged : map.erase key = map := by
    refine ExtTreeMap.ext_getElem? fun other => ?_
    rw [ExtTreeMap.getElem?_erase]
    split
    next same =>
      obtain rfl := LawfulEqCmp.eq_of_compare same
      exact (ExtTreeMap.getElem?_eq_none absent).symm
    next => rfl
  rw [total_insert, unchanged]

/-- Overwriting an entry exchanges its summand. -/
theorem total_insert_held [AddCommGroup M] (f : κ → ν → M) {map : ExtTreeMap κ ν cmp} {key : κ} {old : ν} (value : ν)
    (held : map[key]? = some old) : total f (map.insert key value) = total f map - f key old + f key value := by
  rw [total_insert, total_erase f held]
  abel

omit [LawfulEqCmp cmp] in
@[simp] theorem total_empty [AddCommMonoid M] (f : κ → ν → M) : total f (∅ : ExtTreeMap κ ν cmp) = 0 := by
  have entries : (∅ : ExtTreeMap κ ν cmp).toList = [] := ExtTreeMap.toList_eq_nil_iff.mpr rfl
  rw [total, entries]
  rfl

theorem total_nonneg [AddCommMonoid M] [PartialOrder M] [IsOrderedAddMonoid M] {f : κ → ν → M}
    {map : ExtTreeMap κ ν cmp} (nonneg : ∀ key value, map[key]? = some value → 0 ≤ f key value) : 0 ≤ total f map := by
  apply List.sum_nonneg
  intro summand member
  obtain ⟨⟨key, value⟩, held, rfl⟩ := List.mem_map.mp member
  exact nonneg key value (ExtTreeMap.mem_toList_iff_getElem?_eq_some.mp held)

end MapSum
