import TradingCore.Foundation.MapEdits

/-! An ordered map that shows part of another: each entry it has is also an
entry of the whole. The first entry of a view is the first of the whole when
nothing of the whole comes before it. -/

universe u v

namespace MapViews

open Std

variable {κ : Type u} {ν : Type v} {cmp : κ → κ → Ordering} [TransCmp cmp]

def Inside (view whole : ExtTreeMap κ ν cmp) : Prop :=
  ∀ (key : κ) (value : ν), view[key]? = some value → whole[key]? = some value

/-- No entry of the map comes before the key. -/
def AtTop (map : ExtTreeMap κ ν cmp) (key : κ) : Prop :=
  ∀ other ∈ map, (cmp key other).isLE

section inside
variable {view whole : ExtTreeMap κ ν cmp}

theorem Inside.refl (map : ExtTreeMap κ ν cmp) : Inside map map := fun _ _ held => held

theorem Inside.erase (inside : Inside view whole) (key : κ) : Inside (view.erase key) whole := by
  intro other value held
  rw [ExtTreeMap.getElem?_erase] at held
  split at held
  next => cases held
  next => exact inside other value held

variable [LawfulEqCmp cmp]

theorem Inside.edit (inside : Inside view whole) (change : κ × Option ν) :
    Inside (MapEdits.edit view change) (MapEdits.edit whole change) := by
  classical
  intro key value held
  by_cases own : change.1 = key
  · subst own
    rw [MapEdits.getElem?_edit_self] at held ⊢
    exact held
  · rw [MapEdits.getElem?_edit_other _ own] at held ⊢
    exact inside key value held

theorem Inside.insert (inside : Inside view whole) (key : κ) (value : ν) :
    Inside (view.insert key value) (whole.insert key value) :=
  inside.edit (key, some value)

/-- A change of the whole at a key that the view lacks goes unnoticed. -/
theorem Inside.edit_whole (inside : Inside view whole) {change : κ × Option ν} (absent : change.1 ∉ view) :
    Inside view (MapEdits.edit whole change) := by
  intro key value held
  have other : change.1 ≠ key := by
    rintro rfl
    rw [ExtTreeMap.getElem?_eq_none absent] at held
    cases held
  rw [MapEdits.getElem?_edit_other _ other]
  exact inside key value held

end inside

variable {map : ExtTreeMap κ ν cmp} {first : κ × ν}

theorem AtTop.above {key other : κ} (top : AtTop map key) (above : (cmp other key).isLE) : AtTop map other :=
  fun entry member => TransCmp.isLE_trans above (top entry member)

theorem size_insert_of_mem {key : κ} (member : key ∈ map) (value : ν) : (map.insert key value).size = map.size := by
  rw [ExtTreeMap.size_insert, if_pos (ExtTreeMap.contains_iff_mem.mpr member)]

theorem size_insert_of_not_mem {key : κ} (absent : key ∉ map) (value : ν) :
    (map.insert key value).size = map.size + 1 := by
  rw [ExtTreeMap.size_insert, if_neg (mt ExtTreeMap.contains_iff_mem.mp absent)]

variable [LawfulEqCmp cmp]

theorem size_erase_of_mem {key : κ} (member : key ∈ map) : (map.erase key).size + 1 = map.size := by
  have positive : 0 < map.size := by
    rw [← ExtTreeMap.length_keys]
    exact List.length_pos_of_mem (ExtTreeMap.mem_keys.mpr member)
  rw [ExtTreeMap.size_erase, if_pos (ExtTreeMap.contains_iff_mem.mpr member), Nat.sub_add_cancel positive]

theorem mem_insert_iff {map : ExtTreeMap κ ν cmp} {key other : κ} {value : ν} :
    other ∈ map.insert key value ↔ other = key ∨ other ∈ map := by
  rw [ExtTreeMap.mem_insert, LawfulEqCmp.compare_eq_iff_eq, eq_comm]

theorem mem_erase_iff {map : ExtTreeMap κ ν cmp} {key other : κ} :
    other ∈ map.erase key ↔ other ≠ key ∧ other ∈ map := by
  rw [ExtTreeMap.mem_erase, ne_eq, LawfulEqCmp.compare_eq_iff_eq, ne_comm]

theorem mem_of_mem_toList {map : ExtTreeMap κ ν cmp} {entry : κ × ν} (member : entry ∈ map.toList) : entry.1 ∈ map := by
  rw [ExtTreeMap.mem_iff_isSome_getElem?, ExtTreeMap.mem_toList_iff_getElem?_eq_some.mp member]
  rfl

theorem atTop_iff_toList {key : κ} : AtTop map key ↔ ∀ entry ∈ map.toList, (cmp key entry.1).isLE := by
  constructor
  · intro top entry member
    apply top
    exact mem_of_mem_toList member
  · intro top other member
    obtain ⟨value, held⟩ := Option.isSome_iff_exists.mp (ExtTreeMap.mem_iff_isSome_getElem?.mp member)
    exact top (other, value) (ExtTreeMap.mem_toList_iff_getElem?_eq_some.mpr held)

theorem mem_of_head (head : map.toList.head? = some first) : first.1 ∈ map :=
  mem_of_mem_toList (List.mem_of_head? head)

theorem atTop_of_head (head : map.toList.head? = some first) : AtTop map first.1 := by
  rw [atTop_iff_toList]
  intro entry member
  obtain ⟨rest, split⟩ := List.head?_eq_some_iff.mp head
  have sorted := map.ordered_keys_toList
  rw [split] at member sorted
  rcases List.mem_cons.mp member with same | later
  · rw [same]
    exact ReflCmp.isLE_rfl
  · exact Ordering.isLE_of_eq_lt ((List.pairwise_cons.mp sorted).1 entry later)

theorem head_iff : map.toList.head? = some first ↔ map[first.1]? = some first.2 ∧ AtTop map first.1 := by
  constructor
  · intro head
    exact ⟨ExtTreeMap.mem_toList_iff_getElem?_eq_some.mp (List.mem_of_head? head), atTop_of_head head⟩
  · intro ⟨held, top⟩
    have member : first ∈ map.toList := ExtTreeMap.mem_toList_iff_getElem?_eq_some.mpr held
    cases shown : map.toList.head? with
    | none =>
      rw [List.head?_eq_none_iff.mp shown] at member
      cases member
    | some other =>
      have found := List.mem_of_head? shown
      have before := atTop_iff_toList.mp (atTop_of_head shown) first member
      have same : first.1 = other.1 :=
        LawfulEqCmp.eq_of_compare (OrientedCmp.isLE_antisymm (top other.1 (mem_of_head shown)) before)
      rw [ExtTreeMap.mem_toList_iff_getElem?_eq_some, ← same, held] at found
      exact congrArg some (Prod.ext same.symm (Option.some.inj found).symm)

/-- The first entry of a view is the first of the whole if it is on top there. -/
theorem Inside.head_iff {view whole : ExtTreeMap κ ν cmp} (inside : Inside view whole)
    (head : view.toList.head? = some first) : whole.toList.head? = some first ↔ AtTop whole first.1 := by
  have held := inside first.1 first.2 (MapViews.head_iff.mp head).1
  exact ⟨atTop_of_head, fun top => MapViews.head_iff.mpr ⟨held, top⟩⟩

theorem erase_only (listed : map.toList = [first]) : map.erase first.1 = ∅ := by
  apply ExtTreeMap.ext_getElem?
  intro key
  rw [ExtTreeMap.getElem?_erase, ExtTreeMap.getElem?_empty]
  split
  next => rfl
  next other =>
    cases held : map[key]? with
    | none => rfl
    | some value =>
      have member : (key, value) ∈ map.toList := ExtTreeMap.mem_toList_iff_getElem?_eq_some.mpr held
      obtain rfl : (key, value) = first := by simpa [listed] using member
      exact absurd ReflCmp.compare_self other

/-- Without its first entry a map starts with its second. -/
theorem head_erase {second : κ × ν} {rest : List (κ × ν)} (listed : map.toList = first :: second :: rest) :
    (map.erase first.1).toList.head? = some second := by
  have sorted := map.ordered_keys_toList
  rw [listed] at sorted
  obtain ⟨before, later⟩ := List.pairwise_cons.mp sorted
  have listedSecond : second ∈ map.toList := by simp [listed]
  refine head_iff.mpr ⟨?_, ?_⟩
  · have other : ¬ cmp first.1 second.1 = .eq := by simp [before second List.mem_cons_self]
    rw [ExtTreeMap.getElem?_erase, if_neg other]
    exact ExtTreeMap.mem_toList_iff_getElem?_eq_some.mp listedSecond
  · rw [atTop_iff_toList]
    intro entry member
    rw [ExtTreeMap.mem_toList_iff_getElem?_eq_some, ExtTreeMap.getElem?_erase] at member
    split at member
    next => cases member
    next other =>
      rw [← ExtTreeMap.mem_toList_iff_getElem?_eq_some, listed] at member
      rcases List.mem_cons.mp member with rfl | member
      · exact absurd ReflCmp.compare_self other
      · rcases List.mem_cons.mp member with rfl | member
        · exact ReflCmp.isLE_rfl
        · exact Ordering.isLE_of_eq_lt ((List.pairwise_cons.mp later).1 entry member)

end MapViews
