import TradingCore.Foundation.Trimming
import TradingCore.Utilities.StringUtilities

/-! The three trims. Each finds the ends of what is left in its own way; only the
third one reads behind the end of a string that is erased as a whole. -/

namespace TradingCore.Proofs.Trims
open Utilities Utilities.StringUtilities Trimming

theorem sizeSub_of_le {a b : Nat} (ordered : b ≤ a) (sized : a < sizeLimit) : sizeSub a b = a - b := by
  have smaller : a - b < sizeLimit := by omega
  rw [sizeSub, Nat.sub_add_comm ordered, Nat.add_mod_right, Nat.mod_eq_of_lt smaller]

theorem sizeAdd_of_lt {a b : Nat} (sized : a + b < sizeLimit) : sizeAdd a b = a + b := by
  rw [sizeAdd, Nat.mod_eq_of_lt sized]

/-- The loop stops behind the blanks that it finds in front of it. -/
theorem skipFront_eq (blank : Char → Bool) (str : StdString) (start : Nat) :
    skipFront blank str start str.length = some (start + ((str.drop start).takeWhile blank).length) := by
  induction start using skipFront.induct str.length with
  | case1 start more ih =>
    rw [skipFront, if_pos more, List.getElem?_eq_getElem more, List.drop_eq_getElem_cons more, List.takeWhile_cons]
    simp only [Option.bind_eq_bind, Option.bind_some]
    cases blank str[start] with
    | true =>
      rw [if_pos rfl, if_pos rfl, ih, List.length_cons]
      congr 1
      omega
    | false => rfl
  | case2 start done =>
    rw [skipFront, if_neg done, List.drop_eq_nil_of_le (Nat.le_of_not_lt done)]
    rfl

theorem stepBack_eq (blank : Char → Bool) (str : StdString) {last : Nat} (within : last ≤ str.length) :
    stepBack blank str last = some (((str.take last).rdropWhile blank).length - 1) := by
  induction last with
  | zero => rfl
  | succ last ih =>
    rw [stepBack, List.getElem?_eq_getElem within, rdropWhile_take_succ blank within]
    simp only [Option.bind_eq_bind, Option.bind_some]
    cases blank str[last] with
    | true => exact ih (Nat.le_of_succ_le within)
    | false =>
      rw [if_neg Bool.false_ne_true, if_neg Bool.false_ne_true, List.length_take_of_le within]
      rfl

theorem skipBack_eq (blank : Char → Bool) (str : StdString) {last : Nat} (within : last < str.length) :
    skipBack blank str last = some (((str.take (last + 1)).rdropWhile blank).length - 1) := by
  induction last with
  | zero =>
    rw [skipBack, rdropWhile_take_succ blank within]
    split
    next => rfl
    next => rw [List.length_take_of_le within]
  | succ last ih =>
    rw [skipBack, List.getElem?_eq_getElem within, rdropWhile_take_succ blank within]
    simp only [Option.bind_eq_bind, Option.bind_some]
    cases blank str[last + 1] with
    | true => exact ih (Nat.lt_of_succ_lt within)
    | false =>
      rw [if_neg Bool.false_ne_true, if_neg Bool.false_ne_true, List.length_take_of_le within]
      rfl

theorem skipBack_outside (blank : Char → Bool) {str : StdString} {last : Nat} (some : 0 < last)
    (outside : str.length ≤ last) : skipBack blank str last = none := by
  cases last with
  | zero => exact absurd some (Nat.lt_irrefl 0)
  | succ last =>
    rw [skipBack, List.getElem?_eq_none outside]
    rfl

theorem erase_front (str : StdString) (count : Nat) : str.erase 0 count = some (str.drop count) := by
  rw [StdString.erase, if_pos (Nat.zero_le _), List.take_zero, List.nil_append, Nat.zero_add]

theorem erase_back {str : StdString} {pos count : Nat} (within : pos ≤ str.length) (all : str.length ≤ pos + count) :
    str.erase pos count = some (str.take pos) := by
  rw [StdString.erase, if_pos within, List.drop_eq_nil_of_le all, List.append_nil]

/-- What is left, and how much there is in front of it. -/
theorem sizes (blank : Char → Bool) (str : StdString) :
    (str.takeWhile blank).length + (str.dropWhile blank).length = str.length ∧
    (trimmed blank str).length ≤ (str.dropWhile blank).length := by
  constructor
  · rw [← List.length_append, List.takeWhile_append_dropWhile]
  · exact (List.rdropWhile_prefix blank _).length_le

theorem trim1_eq {str : StdString} (sized : str.length < sizeLimit) : trim1 str = some (trimmed isBlank str) := by
  obtain ⟨whole, less⟩ := sizes isBlank str
  have back := stepBack_eq isBlank str (Nat.le_refl _)
  rw [List.take_length] at back
  rw [trim1, skipFront_eq, back]
  simp only [List.drop_zero, Nat.zero_add, Option.bind_eq_bind, Option.bind_some]
  have within : (str.takeWhile isBlank).length ≤ str.length := by omega
  rw [StdString.partAt, if_pos within, StdString.substr, ← dropWhile_eq_drop]
  by_cases left : trimmed isBlank str = []
  · rw [left, dropWhile_eq_nil isBlank left, List.take_nil]
  · have some := List.length_pos_of_ne_nil left
    have last : (str.rdropWhile isBlank).length - 1 - (str.takeWhile isBlank).length =
        (trimmed isBlank str).length - 1 := by
      rw [rdropWhile_eq isBlank left, List.length_append]
      omega
    have ordered : (str.takeWhile isBlank).length ≤ (str.rdropWhile isBlank).length - 1 := by
      rw [rdropWhile_eq isBlank left, List.length_append]
      omega
    have fits : (str.rdropWhile isBlank).length - 1 < sizeLimit := by
      have shorter := (List.rdropWhile_prefix isBlank str).length_le
      omega
    have count : sizeAdd (sizeSub ((str.rdropWhile isBlank).length - 1) (str.takeWhile isBlank).length) 1 =
        (trimmed isBlank str).length := by
      rw [sizeSub_of_le ordered fits, last, sizeAdd_of_lt (by omega)]
      omega
    rw [count, trimmed, take_rdropWhile]

/-- Erasing up to the first other character removes the blanks in front. -/
theorem erase_blanks {str : StdString} (sized : str.length < sizeLimit) :
    str.erase 0 (str.findFirstNotOf ' ') = some (str.dropWhile isBlank) := by
  have position : str.findIdx (fun ch => !isBlank ch) = (str.findIdx? (· != ' ')).getD str.length :=
    List.findIdx_eq_getD_findIdx?
  rw [erase_front, List.dropWhile_eq_drop_findIdx_not, position, StdString.findFirstNotOf]
  cases str.findIdx? (· != ' ') with
  | some found => rw [Option.getD_some, Option.getD_some]
  | none =>
    have beyond : str.length ≤ npos := Nat.le_sub_one_of_lt sized
    rw [Option.getD_none, Option.getD_none, List.drop_eq_nil_of_le beyond, List.drop_length]

theorem trim2_eq {str : StdString} (sized : str.length < sizeLimit) : trim2 str = some (trimmed isBlank str) := by
  obtain ⟨whole, _⟩ := sizes isBlank str
  have fits : (str.dropWhile isBlank).reverse.length < sizeLimit := by
    rw [List.length_reverse]
    omega
  rw [trim2, erase_blanks sized]
  simp only [Option.bind_eq_bind, Option.bind_some]
  rw [erase_blanks fits]
  rfl

/-- The last character that is left, counted within what is behind the front. -/
theorem skipBack_last (blank : Char → Bool) {str : StdString} (left : trimmed blank str ≠ []) :
    skipBack blank (str.dropWhile blank) ((str.dropWhile blank).length - 1) =
      some ((trimmed blank str).length - 1) := by
  have less := (sizes blank str).2
  have some := List.length_pos_of_ne_nil left
  have inside : (str.dropWhile blank).length - 1 < (str.dropWhile blank).length := by omega
  have back := skipBack_eq blank (str.dropWhile blank) inside
  rwa [Nat.sub_add_cancel (Nat.le_trans some less), List.take_length] at back

theorem erase_last (blank : Char → Bool) {str : StdString} (sized : str.length < sizeLimit)
    (left : trimmed blank str ≠ []) :
    StdString.erase (str.dropWhile blank) (sizeAdd ((trimmed blank str).length - 1) 1)
      (sizeSub (str.dropWhile blank).length ((trimmed blank str).length - 1)) = some (trimmed blank str) := by
  obtain ⟨whole, less⟩ := sizes blank str
  have some := List.length_pos_of_ne_nil left
  have last : sizeAdd ((trimmed blank str).length - 1) 1 = (trimmed blank str).length := by
    rw [sizeAdd_of_lt (by omega)]
    omega
  rw [last, sizeSub_of_le (by omega) (by omega), erase_back less (by omega), trimmed, take_rdropWhile]

/-- With something left, erasing at both ends leaves just that; with nothing left,
the second loop begins outside the string. -/
theorem eraseEnds_eq (blank : Char → Bool) {str : StdString} (sized : str.length < sizeLimit) :
    eraseEnds blank str = if trimmed blank str = [] then none else some (trimmed blank str) := by
  obtain ⟨whole, less⟩ := sizes blank str
  have behind : sizeSub str.length (str.takeWhile blank).length = (str.dropWhile blank).length := by
    rw [sizeSub_of_le (by omega) sized]
    omega
  rw [eraseEnds, skipFront_eq]
  simp only [Option.bind_eq_bind]
  rw [Option.bind_some, List.drop_zero, Nat.zero_add, erase_front, ← dropWhile_eq_drop, Option.bind_some, behind]
  split
  next nothing =>
    have around : 0 < sizeSub 0 1 := by
      rw [sizeSub, sizeLimit]
      decide
    rw [dropWhile_eq_nil blank nothing, List.length_nil, skipBack_outside blank around (Nat.zero_le _),
      Option.bind_none]
  next left =>
    have some := List.length_pos_of_ne_nil left
    have before : sizeSub (str.dropWhile blank).length 1 = (str.dropWhile blank).length - 1 :=
      sizeSub_of_le (by omega) (by omega)
    rw [before, skipBack_last blank left, Option.bind_some, erase_last blank sized left]

theorem trimmed_blank_iff (str : StdString) : trimmed isBlank str ≠ [] ↔ ∃ ch ∈ str, ch ≠ ' ' := by
  rw [ne_eq, trimmed_eq_nil_iff]
  simp [isBlank]

/-- The three trims take the blanks off both ends, without leaving the string,
exactly if it has another character. The length of a string is a size. -/
theorem trims_agree_iff {str : StdString} (sized : str.length < sizeLimit) :
    (trim1 str = some (trimmed isBlank str) ∧ trim2 str = some (trimmed isBlank str) ∧
      trim3 str = some (trimmed isBlank str)) ↔ ∃ ch ∈ str, ch ≠ ' ' := by
  rw [← trimmed_blank_iff, trim3, eraseEnds_eq isBlank sized]
  constructor
  · rintro ⟨_, _, erased⟩ nothing
    rw [if_pos nothing] at erased
    cases erased
  · intro left
    exact ⟨trim1_eq sized, trim2_eq sized, if_neg left⟩

/-- Blanks at both ends of a word. -/
theorem trims_agree_word :
    trim1 [' ', 'a', ' '] = some ['a'] ∧ trim2 [' ', 'a', ' '] = some ['a'] ∧ trim3 [' ', 'a', ' '] = some ['a'] :=
  (trims_agree_iff (by decide)).mpr ⟨'a', by decide, by decide⟩

/-- With a blank and nothing else, the first two trims leave nothing, and the third
one reads outside the string. -/
theorem third_trim_leaves_string :
    trim1 [' '] = some [] ∧ trim2 [' '] = some [] ∧ trim3 [' '] = none :=
  ⟨trim1_eq (by decide), trim2_eq (by decide), eraseEnds_eq isBlank (by decide)⟩

end TradingCore.Proofs.Trims
