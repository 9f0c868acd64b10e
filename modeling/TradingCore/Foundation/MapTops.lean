import TradingCore.Foundation.MapViews

/-! A view that shows the first entries of an ordered map: everything it lacks
comes after everything it has. Such a view is a prefix of the whole. -/

universe u v w

namespace MapTops

open Std MapViews

variable {κ : Type u} {ν : Type v} {cmp : κ → κ → Ordering} [TransCmp cmp] {view whole : ExtTreeMap κ ν cmp}

structure Top (view whole : ExtTreeMap κ ν cmp) : Prop where
  inside : Inside view whole
  before : ∀ key ∈ view, ∀ other ∈ whole, other ∉ view → cmp key other = .lt

theorem Top.refl (map : ExtTreeMap κ ν cmp) : Top map map :=
  ⟨Inside.refl map, fun _ _ _ member absent => absurd member absent⟩

/-- Lists that ascend strictly and have the same elements are the same. -/
theorem eq_of_ascending {α : Type w} {position : α → κ} {first second : List α}
    (firstAscends : first.Pairwise fun one other => cmp (position one) (position other) = .lt)
    (secondAscends : second.Pairwise fun one other => cmp (position one) (position other) = .lt)
    (same : ∀ element, element ∈ first ↔ element ∈ second) : first = second := by
  have distinct : ∀ one other : α, cmp (position one) (position other) = .lt → one ≠ other := by
    rintro one _ ascends rfl
    exact OrientedCmp.not_lt_of_lt ascends ascends
  apply List.Perm.eq_of_pairwise ?_ firstAscends secondAscends
  · rw [List.perm_ext_iff_of_nodup]
    · exact same
    · exact firstAscends.imp (distinct _ _)
    · exact secondAscends.imp (distinct _ _)
  · intro one other _ _ ascends descends
    exact absurd descends (OrientedCmp.not_lt_of_lt ascends)

variable [LawfulEqCmp cmp]

theorem keys_eq_of_mem_iff {first second : ExtTreeMap κ ν cmp} (same : ∀ key, key ∈ first ↔ key ∈ second) :
    first.keys = second.keys := by
  apply @eq_of_ascending κ cmp _ κ id
  · exact first.ordered_keys
  · exact second.ordered_keys
  · intro key
    rw [ExtTreeMap.mem_keys, ExtTreeMap.mem_keys]
    exact same key

/-- The whole is the view followed by what the view lacks. -/
theorem Top.toList_append (top : Top view whole) :
    whole.toList = view.toList ++ whole.toList.filter fun entry => entry.1 ∉ view := by
  apply @eq_of_ascending κ cmp _ (κ × ν) Prod.fst
  · exact whole.ordered_keys_toList
  · refine List.pairwise_append.mpr ⟨view.ordered_keys_toList, whole.ordered_keys_toList.filter _, ?_⟩
    intro shown member lacked later
    obtain ⟨held, absent⟩ := List.mem_filter.mp later
    exact top.before shown.1 (mem_of_mem_toList member) lacked.1 (mem_of_mem_toList held) (of_decide_eq_true absent)
  · intro entry
    rw [List.mem_append, List.mem_filter, decide_eq_true_iff]
    constructor
    · intro member
      by_cases shown : entry.1 ∈ view
      · obtain ⟨value, held⟩ := Option.isSome_iff_exists.mp (ExtTreeMap.mem_iff_isSome_getElem?.mp shown)
        have listed := ExtTreeMap.mem_toList_iff_getElem?_eq_some.mp member
        rw [top.inside entry.1 value held] at listed
        rw [Option.some.inj listed] at held
        exact Or.inl (ExtTreeMap.mem_toList_iff_getElem?_eq_some.mpr held)
      · exact Or.inr ⟨member, shown⟩
    · rintro (shown | lacked)
      · rw [ExtTreeMap.mem_toList_iff_getElem?_eq_some] at shown ⊢
        exact top.inside entry.1 entry.2 shown
      · exact lacked.1

theorem Top.toList_eq (top : Top view whole) : view.toList = whole.toList.take view.size := by
  rw [top.toList_append, ← ExtTreeMap.length_toList, List.take_left]

theorem Top.eq_of_size (top : Top view whole) (full : whole.size ≤ view.size) : view = whole := by
  rw [← ExtTreeMap.toList_inj, top.toList_eq, List.take_of_length_le]
  rw [ExtTreeMap.length_toList]
  exact full

/-- A key that is shown may be overwritten. -/
theorem Top.insert_shown (top : Top view whole) {key : κ} (shown : key ∈ view) (value : ν) :
    Top (view.insert key value) (whole.insert key value) := by
  refine ⟨top.inside.insert key value, ?_⟩
  intro first member other held absent
  rw [mem_insert_iff] at member held absent
  obtain ⟨different, lacked⟩ := not_or.mp absent
  refine top.before first ?_ other (held.resolve_left different) lacked
  rcases member with rfl | member
  · exact shown
  · exact member

/-- A key that comes after all that is shown need not be. -/
theorem Top.insert_after (top : Top view whole) {key : κ} (after : ∀ shown ∈ view, cmp shown key = .lt) (value : ν) :
    Top view (whole.insert key value) := by
  have absent : key ∉ view := fun member => OrientedCmp.not_lt_of_lt (after key member) (after key member)
  constructor
  · have changed : Inside view (MapEdits.edit whole (key, some value)) := top.inside.edit_whole absent
    exact changed
  · intro first member other held lacked
    rcases mem_insert_iff.mp held with rfl | held
    · exact after first member
    · exact top.before first member other held lacked

/-- A key that comes before the last one shown takes its place. -/
theorem Top.replace_last (top : Top view whole) {key last : κ} (shown : last ∈ view)
    (final : ∀ other ∈ view, other = last ∨ cmp other last = .lt) (ahead : cmp key last = .lt) (value : ν) :
    Top ((view.erase last).insert key value) (whole.insert key value) := by
  refine ⟨(top.inside.erase last).insert key value, ?_⟩
  intro first member other held absent
  rw [mem_insert_iff, mem_erase_iff] at member absent
  obtain ⟨different, lacked⟩ := not_or.mp absent
  have kept := (mem_insert_iff.mp held).resolve_left different
  -- what the view lacks now is the last key, or something it lacked before
  by_cases same : other = last
  · subst same
    rcases member with rfl | ⟨earlier, member⟩
    · exact ahead
    · exact (final first member).resolve_left earlier
  · have unseen : other ∉ view := fun seen => lacked ⟨same, seen⟩
    rcases member with rfl | ⟨_, member⟩
    · exact TransCmp.lt_trans ahead (top.before last shown other kept unseen)
    · exact top.before first member other kept unseen

end MapTops
