import TradingCore.Proofs.Trims

/-! Both ways to strip a string. Stripping by erasing leaves the string if all of it
is white space; the fast way leaves its table at a character that is not ASCII, and
looks up only the first and the last character that it keeps. -/

namespace TradingCore.Proofs.Strips
open Utilities Utilities.StringUtilities Trimming

def isSpace (ch : Char) : Bool := ch == ' ' || ch == '\t' || ch == '\n' || ch == '\r'

theorem symbols_any : (fun ch => symbols.any (· == ch)) = isSpace := by
  funext ch
  rw [Bool.eq_iff_iff]
  simp only [symbols, isSpace, List.any_cons, List.any_nil, Bool.or_eq_true, beq_iff_eq, Bool.false_eq_true]
  tauto

theorem isSpace_iff (ch : Char) : isSpace ch ↔ ch.toNat = 32 ∨ ch.toNat = 9 ∨ ch.toNat = 10 ∨ ch.toNat = 13 := by
  have code : ∀ other : Char, ch = other ↔ ch.toNat = other.toNat := fun other => Char.toNat_inj.symm
  simp only [isSpace, Bool.or_eq_true, beq_iff_eq, code, or_assoc]
  rfl

theorem ascii_of_isSpace {ch : Char} (space : isSpace ch = true) : ch.toNat < 128 := by
  have code := (isSpace_iff ch).mp space
  omega

theorem indexOf_ascii {ch : Char} (ascii : ch.toNat < 128) : indexOf ch = ch.toNat := by
  have table : 256 ≤ sizeLimit := by decide
  unfold indexOf
  generalize sizeLimit = limit at table ⊢
  have signed : Int.bmod ch.toNat 256 = ch.toNat := by
    rw [Int.bmod_def]
    omega
  rw [signed, Int.emod_eq_of_lt (by omega) (by omega), Int.toNat_natCast]

/-- A byte from 128 on is negative as a character. -/
theorem indexOf_high {ch : Char} (byte : ch.toNat < 256) (high : 128 ≤ ch.toNat) : 256 ≤ indexOf ch := by
  have table : 2 * 256 ≤ sizeLimit := by decide
  unfold indexOf
  generalize sizeLimit = limit at table ⊢
  have signed : Int.bmod ch.toNat 256 = ch.toNat - 256 := by
    rw [Int.bmod_def]
    omega
  rw [signed, ← Int.add_emod_right, Int.emod_eq_of_lt (by omega) (by omega)]
  omega

theorem tbl_eq {pos : Nat} (within : pos < 256) :
    tbl[pos]? = some (if pos = 32 ∨ pos = 9 ∨ pos = 10 ∨ pos = 13 then 1 else 0) := by
  have tab : indexOf '\t' = 9 := indexOf_ascii (by decide)
  have newline : indexOf '\n' = 10 := indexOf_ascii (by decide)
  have carriage : indexOf '\r' = 13 := indexOf_ascii (by decide)
  have space : indexOf ' ' = 32 := indexOf_ascii (by decide)
  simp only [tbl, List.foldl_cons, List.foldl_nil, tab, newline, carriage, space, List.getElem?_set, List.length_set,
    List.length_replicate, List.getElem?_replicate, within]
  split_ifs <;> first | rfl | omega

theorem tbl_ascii {ch : Char} (ascii : ch.toNat < 128) : tbl[indexOf ch]? = some (if isSpace ch then 1 else 0) := by
  rw [indexOf_ascii ascii, tbl_eq (by omega)]
  exact congrArg some (if_congr (isSpace_iff ch).symm rfl rfl)

theorem length_tbl : tbl.length = 256 := by
  simp only [tbl, List.foldl_cons, List.foldl_nil, List.length_set, List.length_replicate]

theorem isSet_eq {str : StdString} {pos : UInt32} {ch : Char} (reads : str[pos.toNat]? = some ch)
    (byte : ch.toNat < 256) : isSet str pos = if ch.toNat < 128 then some (isSpace ch) else none := by
  have within : pos.toNat ≠ str.length := by
    rintro last
    rw [last, List.getElem?_length] at reads
    cases reads
  rw [isSet, StdString.charAt, if_neg within, reads]
  split
  next ascii =>
    simp only [Option.bind_eq_bind, Option.bind_some, tbl_ascii ascii]
    cases isSpace ch <;> rfl
  next high =>
    have outside : tbl.length ≤ indexOf ch := by
      rw [length_tbl]
      exact indexOf_high byte (Nat.le_of_not_lt high)
    simp only [Option.bind_eq_bind, Option.bind_some, List.getElem?_eq_none outside, Option.bind_none]

theorem skipStep_goes {str : StdString} {pos next : UInt32} {ch : Char} {within : Bool} (inside : within = true)
    (reads : str[pos.toNat]? = some ch) (space : isSpace ch = true) : skipStep within str pos next = .inl next := by
  have ascii := ascii_of_isSpace space
  rw [skipStep, if_pos inside, isSet_eq reads (by omega), if_pos ascii, space]

theorem skipStep_leaves {str : StdString} {pos next : UInt32} {ch : Char} {within : Bool} (inside : within = true)
    (reads : str[pos.toNat]? = some ch) (byte : ch.toNat < 256) (solid : isSpace ch = false) :
    skipStep within str pos next = .inr (if ch.toNat < 128 then some pos else none) := by
  rw [skipStep, if_pos inside, isSet_eq reads byte, solid]
  by_cases ascii : ch.toNat < 128
  · rw [if_pos ascii, if_pos ascii]
  · rw [if_neg ascii, if_neg ascii]

theorem skipStep_beyond {str : StdString} {pos next : UInt32} {within : Bool} (beyond : within = false) :
    skipStep within str pos next = .inr (some pos) := by
  rw [skipStep, if_neg (Bool.not_eq_true within ▸ beyond)]

theorem fits_size {count : Nat} (small : count < 2 ^ 32) : count < sizeLimit := Nat.lt_of_lt_of_le small (by decide)

theorem toNat_position {pos : Nat} (sized : pos < 2 ^ 32) : (UInt32.ofNat pos).toNat = pos :=
  UInt32.toNat_ofNat_of_lt' sized

theorem next_position (pos : Nat) : UInt32.ofNat pos + 1 = UInt32.ofNat (pos + 1) := (UInt32.ofNat_add pos 1).symm

theorem previous_position {pos : Nat} (some : 0 < pos) : UInt32.ofNat pos - 1 = UInt32.ofNat (pos - 1) :=
  (UInt32.ofNat_sub some).symm

/-- From the left, the loop goes past the spaces in front. -/
theorem leftStep_goes {front rest : StdString} {right : UInt32} (spaces : ∀ ch ∈ front, isSpace ch)
    (behind : front.length ≤ right.toNat + 1) {pos : Nat} (less : pos < front.length) :
    leftStep (front ++ rest) right (UInt32.ofNat pos) = .inl (UInt32.ofNat (pos + 1)) := by
  have bound := right.toNat_lt
  have position : (UInt32.ofNat pos).toNat = pos := toNat_position (by omega)
  have inside : decide (UInt32.ofNat pos ≤ right) = true := by
    rw [decide_eq_true_iff, UInt32.le_iff_toNat_le, position]
    omega
  have reads : (front ++ rest)[(UInt32.ofNat pos).toNat]? = some front[pos] := by
    rw [position, List.getElem?_append_left less, List.getElem?_eq_getElem less]
  rw [leftStep, next_position]
  exact skipStep_goes inside reads (spaces _ (List.getElem_mem less))

/-- It stops at the character behind them, which has to be in the table. -/
theorem left_ends {front rest : StdString} {first : Char} {right : UInt32} {steps : Nat}
    (spaces : ∀ ch ∈ front, isSpace ch) (byte : first.toNat < 256) (other : isSpace first = false)
    (behind : front.length ≤ right.toNat) (enough : front.length < steps) :
    Loops.iterate (leftStep (front ++ first :: rest) right) steps 0 =
      some (if first.toNat < 128 then some (UInt32.ofNat front.length) else none) := by
  have bound := right.toNat_lt
  have position : (UInt32.ofNat front.length).toNat = front.length := toNat_position (by omega)
  apply Loops.iterate_visits UInt32.ofNat front.length
  · exact fun pos less => leftStep_goes spaces (Nat.le_succ_of_le behind) less
  · apply skipStep_leaves
    · rwa [decide_eq_true_iff, UInt32.le_iff_toNat_le, position]
    · rw [position, List.getElem?_append_right (Nat.le_refl _), Nat.sub_self]
      rfl
    · exact byte
    · exact other
  · exact enough

/-- From the right, the loop goes past the spaces at the end. -/
theorem rightStep_goes {before back : StdString} {last : Char} {left : UInt32} (spaces : ∀ ch ∈ back, isSpace ch)
    (ahead : left.toNat ≤ before.length) (sized : before.length + back.length < 2 ^ 32) {round : Nat}
    (less : round < back.length) :
    rightStep (before ++ last :: back) left (UInt32.ofNat (before.length + (back.length - round))) =
      .inl (UInt32.ofNat (before.length + (back.length - (round + 1)))) := by
  have position : (UInt32.ofNat (before.length + (back.length - round))).toNat =
      before.length + (back.length - round) := toNat_position (by omega)
  have inside : decide (UInt32.ofNat (before.length + (back.length - round)) ≥ left) = true := by
    rw [decide_eq_true_iff, ge_iff_le, UInt32.le_iff_toNat_le, position]
    omega
  have within : back.length - (round + 1) < back.length := by omega
  have reads : (before ++ last :: back)[(UInt32.ofNat (before.length + (back.length - round))).toNat]? =
      some back[back.length - (round + 1)] := by
    have behind : before.length + (back.length - round) - before.length = back.length - (round + 1) + 1 := by omega
    rw [position, List.getElem?_append_right (Nat.le_add_right _ _), behind, List.getElem?_cons_succ,
      List.getElem?_eq_getElem within]
  have previous : before.length + (back.length - round) - 1 = before.length + (back.length - (round + 1)) := by omega
  rw [rightStep, previous_position (by omega), previous]
  exact skipStep_goes inside reads (spaces _ (List.getElem_mem within))

/-- It stops at the character in front of them, which has to be in the table. -/
theorem right_ends {before back : StdString} {last : Char} {left : UInt32} {steps : Nat}
    (spaces : ∀ ch ∈ back, isSpace ch) (byte : last.toNat < 256) (other : isSpace last = false)
    (ahead : left.toNat ≤ before.length) (sized : before.length + back.length < 2 ^ 32)
    (enough : back.length < steps) :
    Loops.iterate (rightStep (before ++ last :: back) left) steps (UInt32.ofNat (before.length + back.length)) =
      some (if last.toNat < 128 then some (UInt32.ofNat before.length) else none) := by
  have position : (UInt32.ofNat before.length).toNat = before.length := toNat_position (by omega)
  apply Loops.iterate_visits (fun round => UInt32.ofNat (before.length + (back.length - round))) back.length
  · exact fun round less => rightStep_goes spaces ahead sized less
  · rw [Nat.sub_self, Nat.add_zero]
    apply skipStep_leaves
    · rwa [decide_eq_true_iff, ge_iff_le, UInt32.le_iff_toNat_le, position]
    · rw [position, List.getElem?_append_right (Nat.le_refl _), Nat.sub_self]
      rfl
    · exact byte
    · exact other
  · exact enough

/-- The string on its way: what has moved to the front, what is in between, and what
is still to move. -/
def moving (done between todo back : StdString) : Move where
  str := done ++ (between ++ (todo ++ back))
  left := UInt32.ofNat (done.length + between.length)
  idx := UInt32.ofNat done.length

theorem moving_reads {done between todo back : StdString} {ch : Char} :
    (moving done between (ch :: todo) back).str.charAt (done.length + between.length) = some ch := by
  have within : done.length + between.length ≠ (done ++ (between ++ (ch :: todo ++ back))).length := by
    simp only [List.length_append, List.length_cons]
    omega
  rw [moving, StdString.charAt, if_neg within, ← List.append_assoc, ← List.length_append,
    List.getElem?_append_right (Nat.le_refl _), Nat.sub_self]
  rfl

theorem moving_writes {done between rest todo back : StdString} {ch replaced : Char}
    (shape : between ++ [ch] = replaced :: rest) :
    (moving done between (ch :: todo) back).str.assign done.length ch =
      some (done ++ [ch] ++ (rest ++ (todo ++ back))) := by
  have same : between ++ (ch :: todo ++ back) = replaced :: (rest ++ (todo ++ back)) := by
    calc between ++ (ch :: todo ++ back)
        = between ++ [ch] ++ (todo ++ back) := List.append_cons between ch (todo ++ back)
      _ = replaced :: (rest ++ (todo ++ back)) := by rw [shape, List.cons_append]
  have within : done.length < (done ++ replaced :: (rest ++ (todo ++ back))).length := by
    rw [List.length_append, List.length_cons]
    omega
  rw [moving, same, StdString.assign, if_pos within, List.set_append_right _ _ (Nat.le_refl _), Nat.sub_self,
    List.append_assoc]
  rfl

/-- One character moves over the first one in between, which is itself if there is
none. -/
theorem moveStep_goes {right : UInt32} {done between todo : StdString} {ch : Char} (back : StdString)
    (ends : done.length + between.length + todo.length = right.toNat) :
    ∃ rest : StdString, rest.length = between.length ∧
      moveStep right (moving done between (ch :: todo) back) = .inl (moving (done ++ [ch]) rest todo back) := by
  have bound := right.toNat_lt
  obtain ⟨replaced, rest, shape⟩ : ∃ replaced rest, between ++ [ch] = replaced :: rest :=
    List.exists_cons_of_ne_nil (List.append_ne_nil_of_right_ne_nil between (List.cons_ne_nil ch []))
  have size : rest.length = between.length := by
    have lengths := congrArg List.length shape
    rw [List.length_append, List.length_singleton, List.length_cons] at lengths
    omega
  have left : (moving done between (ch :: todo) back).left.toNat = done.length + between.length :=
    toNat_position (by omega)
  have idx : (moving done between (ch :: todo) back).idx.toNat = done.length := toNat_position (by omega)
  have more : (moving done between (ch :: todo) back).left ≤ right := by
    rw [UInt32.le_iff_toNat_le, left]
    omega
  refine ⟨rest, size, ?_⟩
  rw [moveStep, if_pos more, left, idx, moving_reads]
  simp only [Option.bind_eq_bind, Option.bind_some, moving_writes shape]
  have further : done.length + 1 = (done ++ [ch]).length := by rw [List.length_append, List.length_singleton]
  have ahead : done.length + between.length + 1 = (done ++ [ch]).length + rest.length := by omega
  simp only [moving, next_position, further, ahead]

theorem moveStep_leaves {right : UInt32} {done between back : StdString}
    (ends : right.toNat + 1 = done.length + between.length) (sized : done.length + between.length < 2 ^ 32) :
    moveStep right (moving done between [] back) = .inr (some (moving done between [] back)) := by
  have past : ¬ (moving done between [] back).left ≤ right := by
    rw [moving, UInt32.le_iff_toNat_le, toNat_position sized]
    omega
  rw [moveStep, if_neg past]

theorem resize_moving {done between back : StdString} (sized : done.length < 2 ^ 32) :
    (moving done between [] back).str.resize (moving done between [] back).idx.toNat = done := by
  have none : done.length - (done ++ (between ++ ([] ++ back))).length = 0 := by
    rw [List.length_append]
    omega
  rw [moving, toNat_position sized, StdString.resize, none, List.take_left, List.replicate_zero, List.append_nil]

/-- Everything that is to move ends up behind what has moved before. -/
theorem move_ends {right : UInt32} {done between todo back : StdString} {steps : Nat}
    (ends : right.toNat + 1 = done.length + between.length + todo.length)
    (sized : done.length + between.length + todo.length < 2 ^ 32) (enough : todo.length < steps) :
    ∃ moved, Loops.iterate (moveStep right) steps (moving done between todo back) = some (some moved) ∧
      moved.str.resize moved.idx.toNat = done ++ todo := by
  induction todo generalizing done between steps with
  | nil =>
    obtain ⟨more, rfl⟩ := Nat.exists_eq_add_of_lt enough
    refine ⟨_, Loops.iterate_leaves (moveStep_leaves ends sized) _, ?_⟩
    rw [resize_moving (by omega), List.append_nil]
  | cons ch todo ih =>
    rw [List.length_cons] at ends sized enough
    obtain ⟨more, rfl⟩ := Nat.exists_eq_add_of_lt enough
    obtain ⟨rest, size, goes⟩ := moveStep_goes back (Nat.succ.inj ends.symm)
    have further : (done ++ [ch]).length = done.length + 1 := List.length_append
    rw [Loops.iterate_goes goes, List.append_cons done ch todo]
    apply ih
    · omega
    · omega
    · omega

/-- The last loop, and the resizing behind it, leave what was between the two
positions. -/
theorem move_middle {front core back : StdString} {right : UInt32} {steps : Nat}
    (ends : right.toNat + 1 = front.length + core.length) (sized : front.length + core.length < 2 ^ 32)
    (enough : core.length < steps) :
    ∃ moved, Loops.iterate (moveStep right) steps ⟨front ++ core ++ back, UInt32.ofNat front.length, 0⟩ =
        some (some moved) ∧ moved.str.resize moved.idx.toNat = core := by
  have start : (⟨front ++ core ++ back, UInt32.ofNat front.length, 0⟩ : Move) = moving [] front core back := by
    rw [moving, List.length_nil, Nat.zero_add, List.append_assoc]
    rfl
  rw [start, ← List.nil_append core]
  apply move_ends
  · rwa [List.length_nil, Nat.zero_add]
  · rwa [List.length_nil, Nat.zero_add]
  · exact enough

/-- The loops together, over spaces around what is left. -/
theorem stripFast_around {front core back before rest : StdString} {first last : Char} {steps : Nat}
    (front_spaces : ∀ ch ∈ front, isSpace ch) (back_spaces : ∀ ch ∈ back, isSpace ch)
    (head : core = first :: rest) (tail : core = before ++ [last]) (first_solid : isSpace first = false)
    (last_solid : isSpace last = false) (first_byte : first.toNat < 256) (last_byte : last.toNat < 256)
    (sized : front.length + core.length + back.length < 2 ^ 32)
    (enough : front.length + core.length + back.length < steps) :
    stripFast steps (front ++ core ++ back) =
      some (if first.toNat < 128 ∧ last.toNat < 128 then some core else none) := by
  have size : core.length = before.length + 1 := by rw [tail, List.length_append, List.length_singleton]
  have ahead : (front ++ before).length = front.length + before.length := List.length_append
  have until_last : sizeSub (front ++ core ++ back).length 1 = (front ++ before).length + back.length := by
    have length : (front ++ core ++ back).length = front.length + core.length + back.length := by
      rw [List.length_append, List.length_append]
    rw [length, Trims.sizeSub_of_le (by omega) (fits_size sized)]
    omega
  have right : (UInt32.ofNat ((front ++ before).length + back.length)).toNat =
      (front ++ before).length + back.length := toNat_position (by omega)
  have from_left : Loops.iterate (leftStep (front ++ core ++ back)
      (UInt32.ofNat ((front ++ before).length + back.length))) steps 0 =
      some (if first.toNat < 128 then some (UInt32.ofNat front.length) else none) := by
    rw [head, List.append_assoc, List.cons_append]
    exact left_ends front_spaces first_byte first_solid (by omega) (by omega)
  have left : (UInt32.ofNat front.length).toNat = front.length := toNat_position (by omega)
  have from_right : Loops.iterate (rightStep (front ++ core ++ back) (UInt32.ofNat front.length)) steps
      (UInt32.ofNat ((front ++ before).length + back.length)) =
      some (if last.toNat < 128 then some (UInt32.ofNat (front ++ before).length) else none) := by
    rw [tail, ← List.append_assoc, List.append_assoc, List.singleton_append]
    exact right_ends back_spaces last_byte last_solid (by omega) (by omega) (by omega)
  have final : (UInt32.ofNat (front ++ before).length).toNat = (front ++ before).length := toNat_position (by omega)
  have middle : (UInt32.ofNat (front ++ before).length).toNat + 1 = front.length + core.length := by omega
  obtain ⟨moved, moves, kept⟩ := @move_middle front core back _ steps middle (by omega) (by omega)
  simp only [stripFast, until_last, from_left]
  by_cases first_ascii : first.toNat < 128
  · rw [if_pos first_ascii]
    simp only [whenInside, Option.bind_some, Option.elim_some, from_right]
    by_cases last_ascii : last.toNat < 128
    · rw [if_pos last_ascii, if_pos ⟨first_ascii, last_ascii⟩, Option.elim_some, moves, Option.bind_some,
        Option.elim_some, kept]
    · rw [if_neg last_ascii, if_neg fun both => last_ascii both.2, Option.elim_none]
  · rw [if_neg first_ascii, if_neg fun both => first_ascii both.1]
    rfl

/-- With something left, the fast way leaves just that if it begins and ends with
ASCII, and else goes outside the table. -/
theorem stripFast_eq {str : StdString} {first last : Char} {steps : Nat} (sized : str.length < 2 ^ 32)
    (bytes : ∀ ch ∈ str, ch.toNat < 256) (head : (trimmed isSpace str).head? = some first)
    (tail : (trimmed isSpace str).getLast? = some last) (enough : str.length < steps) :
    stripFast steps str =
      some (if first.toNat < 128 ∧ last.toNat < 128 then some (trimmed isSpace str) else none) := by
  obtain ⟨front, back, whole, front_spaces, back_spaces⟩ := surrounded isSpace str
  obtain ⟨rest, begins⟩ := List.head?_eq_some_iff.mp head
  obtain ⟨before, ends⟩ := List.getLast?_eq_some_iff.mp tail
  have length := congrArg List.length whole
  rw [List.length_append, List.length_append] at length
  have kept : ∀ ch ∈ trimmed isSpace str, ch.toNat < 256 := by
    intro ch member
    apply bytes
    rw [whole]
    exact List.mem_append_left back (List.mem_append_right front member)
  have around := stripFast_around front_spaces back_spaces begins ends (head_trimmed isSpace begins)
    (last_trimmed isSpace ends) (kept first (List.mem_of_mem_head? head)) (kept last (List.mem_of_getLast? tail))
    (length ▸ sized) (length ▸ enough)
  rwa [← whole] at around

/-- With only white space, the first loop passes the end of the string, and nothing
is left. -/
theorem stripFast_blank {str : StdString} {steps : Nat} (sized : str.length < 2 ^ 32) (nonempty : str ≠ [])
    (spaces : ∀ ch ∈ str, isSpace ch) (enough : str.length < steps) : stripFast steps str = some (some []) := by
  have some_length := List.length_pos_of_ne_nil nonempty
  have until_last : sizeSub str.length 1 = str.length - 1 := Trims.sizeSub_of_le some_length (fits_size sized)
  have right : (UInt32.ofNat (str.length - 1)).toNat = str.length - 1 := toNat_position (by omega)
  have left : (UInt32.ofNat str.length).toNat = str.length := toNat_position sized
  have passed : ¬ UInt32.ofNat str.length ≤ UInt32.ofNat (str.length - 1) := by
    rw [UInt32.le_iff_toNat_le, left, right]
    omega
  have beyond := decide_eq_false passed
  have from_left : Loops.iterate (leftStep str (UInt32.ofNat (str.length - 1))) steps 0 =
      some (some (UInt32.ofNat str.length)) := by
    apply Loops.iterate_visits UInt32.ofNat str.length
    · intro pos less
      have goes := @leftStep_goes str [] (UInt32.ofNat (str.length - 1)) spaces (by omega) pos less
      rwa [List.append_nil] at goes
    · exact skipStep_beyond beyond
    · exact enough
  obtain ⟨more, rfl⟩ := Nat.exists_eq_add_of_lt enough
  have stays : rightStep str (UInt32.ofNat str.length) (UInt32.ofNat (str.length - 1)) =
      .inr (some (UInt32.ofNat (str.length - 1))) := skipStep_beyond beyond
  have moves : moveStep (UInt32.ofNat (str.length - 1)) ⟨str, UInt32.ofNat str.length, 0⟩ =
      .inr (some ⟨str, UInt32.ofNat str.length, 0⟩) := by
    rw [moveStep, if_neg passed]
  simp only [stripFast, until_last, from_left, whenInside, Option.bind_some, Option.elim_some,
    Loops.iterate_leaves stays, Loops.iterate_leaves moves]
  have short : (0 : UInt32).toNat - str.length = 0 := Nat.zero_sub _
  rw [StdString.resize, short]
  rfl

/-- Something is left, and it begins and ends with ASCII. -/
def AsciiEnds (str : StdString) : Prop :=
  ∃ first last, str.find? (fun ch => !isSpace ch) = some first ∧
    str.reverse.find? (fun ch => !isSpace ch) = some last ∧ first.toNat < 128 ∧ last.toNat < 128

theorem asciiEnds_iff (str : StdString) :
    AsciiEnds str ↔ ∃ first last, (trimmed isSpace str).head? = some first ∧
      (trimmed isSpace str).getLast? = some last ∧ first.toNat < 128 ∧ last.toNat < 128 := by
  obtain ⟨head, tail⟩ := find?_eq_head? isSpace str
  rw [AsciiEnds, head, tail]

theorem strip_eq {str : StdString} (sized : str.length < 2 ^ 32) :
    strip str = if trimmed isSpace str = [] then none else some (trimmed isSpace str) := by
  rw [strip, symbols_any]
  exact Trims.eraseEnds_eq isSpace (fits_size sized)

/-- Both ways take the white space off both ends, without leaving the string or the
table, exactly if something is left that begins and ends with ASCII. The characters
of a string are bytes. -/
theorem strips_agree_iff {str : StdString} (sized : str.length < 2 ^ 32) (bytes : ∀ ch ∈ str, ch.toNat < 256) :
    (strip str = some (trimmed isSpace str) ∧
      ∀ steps, str.length < steps → stripFast steps str = some (some (trimmed isSpace str))) ↔ AsciiEnds str := by
  rw [asciiEnds_iff, strip_eq sized]
  constructor
  · rintro ⟨erased, fast⟩
    have left : trimmed isSpace str ≠ [] := by
      intro nothing
      rw [if_pos nothing] at erased
      cases erased
    have head := List.head?_eq_some_head left
    have tail := List.getLast?_eq_some_getLast left
    have moved := fast _ (Nat.lt_succ_self _)
    rw [stripFast_eq sized bytes head tail (Nat.lt_succ_self _), Option.some_inj] at moved
    by_cases ascii : (List.head _ left).toNat < 128 ∧ (List.getLast _ left).toNat < 128
    · exact ⟨_, _, head, tail, ascii⟩
    · rw [if_neg ascii] at moved
      cases moved
  · rintro ⟨first, last, head, tail, ascii⟩
    have left : trimmed isSpace str ≠ [] := by
      intro nothing
      rw [nothing] at head
      cases head
    refine ⟨if_neg left, fun steps enough => ?_⟩
    rw [stripFast_eq sized bytes head tail enough, if_pos ascii]

/-- White space at both ends of a word. -/
theorem strips_agree_word :
    strip [' ', 'a', '\t'] = some ['a'] ∧
    ∀ steps, 3 < steps → stripFast steps [' ', 'a', '\t'] = some (some ['a']) :=
  (strips_agree_iff (by decide) (by simp)).mpr ⟨'a', 'a', by decide⟩

/-- Erasing reads outside a string that is just a space, where the fast way leaves
nothing; the fast way looks up a letter that is not ASCII outside the table, where
erasing gives the letter back. -/
theorem strips_leave_string_and_table :
    (strip [' '] = none ∧ ∀ steps, 1 < steps → stripFast steps [' '] = some (some [])) ∧
    strip ['\xe9'] = some ['\xe9'] ∧ ∀ steps, 1 < steps → stripFast steps ['\xe9'] = some none := by
  refine ⟨⟨strip_eq (by decide), fun steps enough => ?_⟩, strip_eq (by decide), fun steps enough => ?_⟩
  · have spaces : ∀ ch ∈ [' '], isSpace ch := by simp [isSpace]
    exact stripFast_blank (by decide) (List.cons_ne_nil _ _) spaces enough
  · have bytes : ∀ ch ∈ ['\xe9'], ch.toNat < 256 := by simp
    exact stripFast_eq (by decide) bytes rfl rfl enough

end TradingCore.Proofs.Strips
