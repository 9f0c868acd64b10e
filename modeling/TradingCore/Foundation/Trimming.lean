import Mathlib.Data.List.DropRight
import Mathlib.Data.List.TakeWhile

/-! Lists without the blank elements at their ends, and the positions where these
ends are. -/

universe u

namespace Trimming

variable {α : Type u} (blank : α → Bool)

def trimmed (list : List α) : List α := (list.dropWhile blank).rdropWhile blank

theorem dropWhile_eq_drop (list : List α) : list.dropWhile blank = list.drop (list.takeWhile blank).length := by
  have split : list.takeWhile blank ++ list.dropWhile blank = list := List.takeWhile_append_dropWhile
  calc list.dropWhile blank
      = (list.takeWhile blank ++ list.dropWhile blank).drop (list.takeWhile blank).length := List.drop_left.symm
    _ = list.drop (list.takeWhile blank).length := by rw [split]

theorem take_rdropWhile (list : List α) : list.take (list.rdropWhile blank).length = list.rdropWhile blank :=
  (List.prefix_iff_eq_take.mp (List.rdropWhile_prefix blank list)).symm

/-- What is left at the end of a list begins in front of it if some of its end is
left. -/
theorem rdropWhile_append (front : List α) {rest : List α} (left : rest.rdropWhile blank ≠ []) :
    (front ++ rest).rdropWhile blank = front ++ rest.rdropWhile blank := by
  have some : ¬ (rest.reverse.dropWhile blank).isEmpty = true := by simpa [List.rdropWhile] using left
  rw [List.rdropWhile, List.reverse_append, List.dropWhile_append, if_neg some, List.reverse_append,
    List.reverse_reverse, List.rdropWhile]

theorem rdropWhile_take_succ {list : List α} {last : Nat} (within : last < list.length) :
    (list.take (last + 1)).rdropWhile blank =
      if blank list[last] then (list.take last).rdropWhile blank else list.take (last + 1) := by
  rw [List.take_succ_eq_append_getElem within, List.rdropWhile_concat]

theorem trimmed_eq_nil_iff (list : List α) : trimmed blank list = [] ↔ ∀ element ∈ list, blank element := by
  rw [trimmed, List.rdropWhile_eq_nil_iff]
  constructor
  · intro rest element member
    have split : list.takeWhile blank ++ list.dropWhile blank = list := List.takeWhile_append_dropWhile
    rw [← split] at member
    rcases List.mem_append.mp member with front | behind
    · exact List.mem_takeWhile_imp front
    · exact rest element behind
  · exact fun all element member => all element ((List.dropWhile_sublist _).mem member)

theorem dropWhile_eq_nil {list : List α} (nothing : trimmed blank list = []) : list.dropWhile blank = [] := by
  rw [List.dropWhile_eq_nil_iff]
  exact (trimmed_eq_nil_iff blank list).mp nothing

/-- Something left at the end is also left of the whole list, behind its front. -/
theorem rdropWhile_eq {list : List α} (left : trimmed blank list ≠ []) :
    list.rdropWhile blank = list.takeWhile blank ++ trimmed blank list := by
  have split : list.takeWhile blank ++ list.dropWhile blank = list := List.takeWhile_append_dropWhile
  calc list.rdropWhile blank = (list.takeWhile blank ++ list.dropWhile blank).rdropWhile blank := by rw [split]
    _ = list.takeWhile blank ++ trimmed blank list := rdropWhile_append blank _ left

/-- What is left lies between two parts that are blank throughout. -/
theorem surrounded (list : List α) :
    ∃ front back, list = front ++ trimmed blank list ++ back ∧ (∀ element ∈ front, blank element) ∧
      ∀ element ∈ back, blank element := by
  refine ⟨list.takeWhile blank, (list.dropWhile blank).rtakeWhile blank, ?_, ?_, ?_⟩
  · rw [trimmed, List.append_assoc, List.rdropWhile_append_rtakeWhile, List.takeWhile_append_dropWhile]
  · exact fun element member => List.mem_takeWhile_imp member
  · exact fun element member => List.mem_rtakeWhile_imp member

theorem head_trimmed {list rest : List α} {first : α} (same : trimmed blank list = first :: rest) :
    blank first = false := by
  obtain ⟨behind, whole⟩ := List.rdropWhile_prefix blank (list.dropWhile blank)
  have start : list.dropWhile blank = first :: (rest ++ behind) := by
    rw [← whole, ← List.cons_append, ← same, trimmed]
  have some : list.dropWhile blank ≠ [] := by simp [start]
  have head := List.head_dropWhile_not blank some
  simpa [start] using head

theorem last_trimmed {list before : List α} {last : α} (same : trimmed blank list = before ++ [last]) :
    blank last = false := by
  have some : trimmed blank list ≠ [] := by simp [same]
  have unblank : ¬ blank ((trimmed blank list).getLast some) = true := List.rdropWhile_last_not blank _ some
  simpa [same] using unblank

theorem find?_between {front middle back : List α} (before : ∀ element ∈ front, blank element)
    (behind : ∀ element ∈ back, blank element) (head : ∀ first rest, middle = first :: rest → blank first = false) :
    (front ++ middle ++ back).find? (fun element => !blank element) = middle.head? := by
  have passed : front.find? (fun element => !blank element) = none := by simpa using before
  have nothing : back.find? (fun element => !blank element) = none := by simpa using behind
  rw [List.append_assoc, List.find?_append, passed, Option.none_or]
  cases middle with
  | nil => exact nothing
  | cons first rest =>
    have unblank := head first rest rfl
    rw [List.cons_append, List.find?_cons_of_pos (by simp [unblank]), List.head?_cons]

/-- The first element that is not blank is the first one left, and the last one is
the last one left. -/
theorem find?_eq_head? (list : List α) :
    list.find? (fun element => !blank element) = (trimmed blank list).head? ∧
    list.reverse.find? (fun element => !blank element) = (trimmed blank list).getLast? := by
  obtain ⟨front, back, whole, before, behind⟩ := surrounded blank list
  constructor
  · have head : ∀ first rest, trimmed blank list = first :: rest → blank first = false :=
      fun _ _ same => head_trimmed blank same
    have found := find?_between blank before behind head
    rwa [← whole] at found
  · have reversed : list.reverse = back.reverse ++ (trimmed blank list).reverse ++ front.reverse := by
      have both := congrArg List.reverse whole
      rwa [List.reverse_append, List.reverse_append, ← List.append_assoc] at both
    rw [reversed, find?_between blank, List.head?_reverse]
    · exact fun element member => behind element (List.mem_reverse.mp member)
    · exact fun element member => before element (List.mem_reverse.mp member)
    · intro last rest same
      have shape : trimmed blank list = rest.reverse ++ [last] := by
        rw [← List.reverse_cons, ← same, List.reverse_reverse]
      exact last_trimmed blank shape

end Trimming
