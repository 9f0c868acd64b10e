import TradingCore.Utilities.StringUtilities
import Mathlib.Algebra.Order.Ring.Nat

/-! Strings cut into chunks of one length. The loop keeps the beginning of the
chunk that is not complete yet, and where a chunk of no length would end. -/

namespace TradingCore.Proofs.Chunks
open Utilities Utilities.StringUtilities

/-- The positions that the loop has passed. -/
def passed (str : StdString) (chunkSize : Int) (count : Nat) : Split StdString :=
  (List.range count).foldl (chunkStep str chunkSize) {}

theorem passed_succ (str : StdString) (chunkSize : Int) (count : Nat) :
    passed str chunkSize (count + 1) = chunkStep str chunkSize (passed str chunkSize count) count := by
  rw [passed, List.range_succ, List.foldl_append]
  rfl

def complete (str : StdString) (size count : Nat) : List StdString :=
  (List.range count).map fun chunk => str.substr (chunk * size) size

theorem complete_succ (str : StdString) (size count : Nat) :
    complete str size (count + 1) = complete str size count ++ [str.substr (count * size) size] := by
  rw [complete, List.range_succ, List.map_append]
  rfl

theorem flatten_complete (str : StdString) (size count : Nat) :
    (complete str size count).flatten = str.take (count * size) := by
  induction count with
  | zero => simp [complete]
  | succ count ih =>
    rw [complete_succ, List.flatten_append, ih, List.flatten_singleton, StdString.substr, Nat.succ_mul, List.take_add]

/-- The chunk that begins at a multiple of the length ends at the next one. -/
theorem ends_iff {size pos : Nat} (positive : 0 < size) :
    (size : Int) = ((pos + 1 : Nat) : Int) - ((pos / size * size : Nat) : Int) ↔ size ∣ pos + 1 := by
  have parts := Nat.div_add_mod' pos size
  have small := Nat.mod_lt pos positive
  constructor
  · intro long
    have last : pos + 1 = (pos / size + 1) * size := by
      rw [Nat.succ_mul]
      omega
    rw [last]
    exact Nat.dvd_mul_left size _
  · intro multiple
    have next : (pos + 1) / size = pos / size + 1 := by
      rw [Nat.succ_div, if_pos multiple]
    have whole := Nat.div_mul_cancel multiple
    rw [next, Nat.succ_mul] at whole
    omega

theorem passed_eq (str : StdString) {size : Nat} (positive : 0 < size) (count : Nat) :
    passed str size count = ⟨(count - 1) / size * size, complete str size ((count - 1) / size)⟩ := by
  induction count with
  | zero => simp [passed, complete]
  | succ count ih =>
    rw [passed_succ, ih, chunkStep, Nat.add_sub_cancel]
    cases count with
    | zero =>
      have short : ¬ (size : Int) = ((0 : Nat) : Int) - (((0 - 1) / size * size : Nat) : Int) := by
        simp
        omega
      rw [if_neg short]
    | succ pos =>
      rw [Nat.add_sub_cancel]
      by_cases multiple : size ∣ pos + 1
      · have whole := Nat.div_mul_cancel multiple
        rw [Nat.succ_div, if_pos multiple, Nat.succ_mul] at whole
        rw [if_pos ((ends_iff positive).mpr multiple), Nat.succ_div, if_pos multiple, complete_succ, Nat.succ_mul,
          ← whole, Nat.add_sub_cancel_left]
      · rw [if_neg (mt (ends_iff positive).mp multiple), Nat.succ_div, if_neg multiple, Nat.add_zero]

theorem passed_negative (str : StdString) {chunkSize : Int} (negative : chunkSize < 0) (count : Nat) :
    passed str chunkSize count = {} := by
  induction count with
  | zero => rfl
  | succ count ih =>
    have short : ¬ chunkSize = (count : Int) - ((0 : Nat) : Int) := by omega
    rw [passed_succ, ih, chunkStep, if_neg short]

/-- A chunk of no length ends where it begins, but only in front of the first
character. -/
theorem passed_zero (str : StdString) (count : Nat) : passed str 0 (count + 1) = ⟨0, [[]]⟩ := by
  induction count with
  | zero => rfl
  | succ count ih =>
    have later : ¬ (0 : Int) = ((count + 1 : Nat) : Int) - ((0 : Nat) : Int) := by omega
    rw [passed_succ, ih, chunkStep, if_neg later]

theorem stringToChunks_positive (str : StdString) {size : Nat} (positive : 0 < size) :
    stringToChunks str size = complete str size ((str.length - 1) / size + 1) := by
  have parts := Nat.div_add_mod' (str.length - 1) size
  have small := Nat.mod_lt (str.length - 1) positive
  have rest : (str.drop ((str.length - 1) / size * size)).length ≤ size := by
    rw [List.length_drop]
    omega
  rw [stringToChunks, ← passed, passed_eq str positive, complete_succ, StdString.substr, List.take_of_length_le rest]

/-- The chunks are the string in pieces of the wanted length, the last one as long
as what is left. Without a length there is an empty chunk in front, and with a
negative one just the string. -/
theorem stringToChunks_exact (str : StdString) (chunkSize : Int) :
    (stringToChunks str chunkSize).flatten = str ∧
    stringToChunks str chunkSize =
      if 0 < chunkSize then
        (List.range ((str.length - 1) / chunkSize.toNat + 1)).map fun chunk =>
          str.substr (chunk * chunkSize.toNat) chunkSize.toNat
      else if chunkSize = 0 ∧ str ≠ [] then [[], str]
      else [str] := by
  rcases Int.lt_trichotomy chunkSize 0 with negative | rfl | positive
  · have whole : stringToChunks str chunkSize = [str] := by
      rw [stringToChunks, ← passed, passed_negative str negative]
      rfl
    rw [whole, if_neg (by omega), if_neg (by omega)]
    exact ⟨List.flatten_singleton, rfl⟩
  · rw [if_neg (Int.lt_irrefl 0)]
    cases str with
    | nil => exact ⟨rfl, rfl⟩
    | cons first rest =>
      have front : stringToChunks (first :: rest) 0 = [[], first :: rest] := by
        rw [stringToChunks, ← passed, List.length_cons, passed_zero]
        rfl
      rw [front, if_pos ⟨rfl, List.cons_ne_nil first rest⟩]
      exact ⟨by simp, rfl⟩
  · obtain ⟨size, rfl⟩ := Int.eq_ofNat_of_zero_le (Int.le_of_lt positive)
    have some : 0 < size := Int.natCast_pos.mp positive
    have parts := Nat.div_add_mod' (str.length - 1) size
    have small := Nat.mod_lt (str.length - 1) some
    rw [if_pos positive, Int.toNat_natCast, stringToChunks_positive str some]
    refine ⟨?_, rfl⟩
    rw [flatten_complete, List.take_of_length_le]
    rw [Nat.succ_mul]
    omega

/-- The last chunk is shorter. -/
example : stringToChunks ['a', 'b', 'c', 'd', 'e'] 2 = [['a', 'b'], ['c', 'd'], ['e']] := by decide

end TradingCore.Proofs.Chunks
