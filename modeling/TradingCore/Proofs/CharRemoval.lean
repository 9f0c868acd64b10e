import TradingCore.Proofs.Strips

/-! Characters taken out of a string while it is read. What stays moves to the
front, behind what the loop has read already. -/

namespace TradingCore.Proofs.CharRemoval
open Utilities Utilities.StringUtilities

def removed (ch : Char) : Bool := ch == '\t' || ch == '\n' || ch == '\r'

theorem removed_iff (ch : Char) : removed ch ↔ ch.toNat = 9 ∨ ch.toNat = 10 ∨ ch.toNat = 13 := by
  have code : ∀ other : Char, ch = other ↔ ch.toNat = other.toNat := fun other => Char.toNat_inj.symm
  simp only [removed, Bool.or_eq_true, beq_iff_eq, code, or_assoc]
  rfl

theorem toExclude_ascii {ch : Char} (ascii : ch.toNat < 128) :
    toExclude[indexOf ch]? = some (if removed ch then 1 else 0) := by
  have tab : indexOf '\t' = 9 := Strips.indexOf_ascii (by decide)
  have newline : indexOf '\n' = 10 := Strips.indexOf_ascii (by decide)
  have carriage : indexOf '\r' = 13 := Strips.indexOf_ascii (by decide)
  have within : ch.toNat < 256 := by omega
  rw [Strips.indexOf_ascii ascii]
  simp only [toExclude, List.foldl_cons, List.foldl_nil, tab, newline, carriage, List.getElem?_set, List.length_set,
    List.length_replicate, List.getElem?_replicate, within, removed_iff]
  split_ifs <;> first | rfl | omega

theorem toExclude_high {ch : Char} (byte : ch.toNat < 256) (high : 128 ≤ ch.toNat) : toExclude[indexOf ch]? = none := by
  have length : toExclude.length = 256 := by
    simp only [toExclude, List.foldl_cons, List.foldl_nil, List.length_set, List.length_replicate]
  exact List.getElem?_eq_none (length ▸ Strips.indexOf_high byte high)

/-- The string in front of a position: the characters that stay, and what they have
left behind. -/
structure Moved (front rest : StdString) (state : Removal) : Prop where
  index : state.index = (front.filter (!removed ·)).length
  str : ∃ behind, state.str = front.filter (!removed ·) ++ behind ++ rest ∧
    (front.filter (!removed ·) ++ behind).length = front.length

theorem Moved.step {front rest : StdString} {ch : Char} {state : Removal} (moved : Moved front (ch :: rest) state)
    (byte : ch.toNat < 256) :
    if ch.toNat < 128 then ∃ next, removeStep state front.length = some next ∧ Moved (front ++ [ch]) rest next
    else removeStep state front.length = none := by
  obtain ⟨behind, whole, length⟩ := moved.str
  have reads : state.str[front.length]? = some ch := by
    rw [whole, ← length, List.getElem?_append_right (Nat.le_refl _), Nat.sub_self]
    rfl
  split
  next ascii =>
    have element := toExclude_ascii ascii
    cases gone : removed ch with
    | true =>
      rw [gone, if_pos rfl] at element
      refine ⟨state, ?_, ?_, behind ++ [ch], ?_, ?_⟩
      · simp [removeStep, reads, element]
      · rw [moved.index, List.filter_append]
        simp [gone]
      · rw [whole, List.filter_append]
        simp [gone]
      · rw [List.filter_append]
        simp [gone] at length ⊢
        omega
    | false =>
      rw [gone, if_neg Bool.false_ne_true] at element
      have within : state.index < state.str.length := by
        rw [moved.index, whole, List.length_append, List.length_append, List.length_cons]
        omega
      refine ⟨⟨state.str.set state.index ch, state.index + 1⟩, ?_, ?_, (behind ++ [ch]).drop 1, ?_, ?_⟩
      · simp [removeStep, reads, element, StdString.assign, within]
      · rw [moved.index, List.filter_append]
        simp [gone]
      · rw [whole, moved.index, List.append_assoc, List.set_append_right _ _ (Nat.le_refl _), Nat.sub_self,
          List.filter_append]
        -- the character is written over itself if nothing has gone yet
        cases behind with
        | nil => simp [gone]
        | cons first behind => simp [gone]
      · rw [List.length_append] at length
        simp only [List.filter_append, List.filter_cons, List.filter_nil, gone, Bool.not_false, if_true,
          List.length_append, List.length_drop, List.length_singleton]
        omega
  next high =>
    have element := toExclude_high byte (Nat.le_of_not_lt high)
    simp [removeStep, reads, element]

theorem moved_run {front rest : StdString} {state : Removal} (moved : Moved front rest state)
    (bytes : ∀ ch ∈ rest, ch.toNat < 256) :
    if rest.all (·.toNat < 128) then
      ∃ last, (List.range' front.length rest.length).foldlM removeStep state = some last ∧ Moved (front ++ rest) [] last
    else (List.range' front.length rest.length).foldlM removeStep state = none := by
  induction rest generalizing front state with
  | nil =>
    rw [List.append_nil]
    exact ⟨state, rfl, moved⟩
  | cons ch rest ih =>
    have byte := bytes ch List.mem_cons_self
    have step := moved.step byte
    rw [List.length_cons, List.range'_succ, List.all_cons]
    simp only [List.foldlM_cons, Option.bind_eq_bind]
    by_cases ascii : ch.toNat < 128
    · rw [if_pos ascii] at step
      obtain ⟨next, steps, kept⟩ := step
      have later := ih kept fun other member => bytes other (List.mem_cons_of_mem ch member)
      rw [List.length_append, List.append_assoc] at later
      rw [decide_eq_true ascii, Bool.true_and, steps]
      exact later
    · rw [if_neg ascii] at step
      rw [decide_eq_false ascii, Bool.false_and, if_neg Bool.false_ne_true, step, Option.bind_none]

/-- Taking characters out in place leaves the others in their order, unless one is
not ASCII, which is looked up outside the table. The characters of a string are
bytes. -/
theorem removeCharsFromString_exact (str : StdString) (bytes : ∀ ch ∈ str, ch.toNat < 256) :
    removeCharsFromString str = if str.all (·.toNat < 128) then some (str.filter (!removed ·)) else none := by
  have start : Moved [] str { str } := ⟨rfl, [], rfl, rfl⟩
  have run := moved_run start bytes
  rw [List.length_nil, List.nil_append, ← List.range_eq_range'] at run
  rw [removeCharsFromString]
  cases ascii : str.all (·.toNat < 128) with
  | true =>
    rw [if_pos ascii] at run
    obtain ⟨last, ends, moved⟩ := run
    obtain ⟨behind, whole, _⟩ := moved.str
    simp only [ends, Option.bind_eq_bind, Option.bind_some, if_true]
    rw [StdString.resize, whole, moved.index, List.append_nil, List.take_left, List.length_append,
      Nat.sub_eq_zero_of_le (Nat.le_add_right _ _), List.replicate_zero, List.append_nil]
  | false =>
    rw [ascii, if_neg Bool.false_ne_true] at run
    rw [run]
    rfl

/-- Tabulators and line ends go, blanks stay. -/
theorem removeCharsFromString_exact_line :
    removeCharsFromString ['\t', 'a', ' ', 'b', '\r', '\n'] = some ['a', ' ', 'b'] :=
  (removeCharsFromString_exact ['\t', 'a', ' ', 'b', '\r', '\n'] (by simp)).trans (by decide)

end TradingCore.Proofs.CharRemoval
