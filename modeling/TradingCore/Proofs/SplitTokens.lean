import TradingCore.Proofs.Splitting

/-! The split at any of several characters. It cuts where they are and leaves out
the empty pieces, which is all that sets it apart from the split at one of them. -/

namespace TradingCore.Proofs.SplitTokens
open Utilities Utilities.StringUtilities Splitting

/-- The pieces between the delimiters that are not empty. -/
def tokens (delimiter input : StdString) : List StdString :=
  (input.splitOnP delimiter.contains).filter (· ≠ [])

variable {delimiter input : StdString}

theorem tokens_nil (delimiter : StdString) : tokens delimiter [] = [] := rfl

theorem tokens_whole (free : ∀ ch ∈ input, delimiter.contains ch = false) (nonempty : input ≠ []) :
    tokens delimiter input = [input] := by
  rw [tokens, List.splitOnP_eq_singleton free, List.filter_singleton]
  simp [nonempty]

theorem tokens_cut {front : StdString} {symbol : Char} (free : ∀ ch ∈ front, delimiter.contains ch = false)
    (cut : delimiter.contains symbol) (behind : StdString) :
    tokens delimiter (front ++ symbol :: behind) = [front].filter (· ≠ []) ++ tokens delimiter behind := by
  rw [tokens, List.splitOnP_append_cons _ _ cut, List.splitOnP_eq_singleton free, List.filter_append, ← tokens]

theorem findIdx_some {delimits : Char → Bool} {rest : StdString} {count : Nat}
    (found : rest.findIdx? delimits = some count) :
    ∃ front symbol behind, rest = front ++ symbol :: behind ∧ count = front.length ∧ delimits symbol ∧
      ∀ ch ∈ front, delimits ch = false := by
  induction rest generalizing count with
  | nil => cases found
  | cons first rest ih =>
    rw [List.findIdx?_cons] at found
    split at found
    next here =>
      cases found
      exact ⟨[], first, rest, rfl, rfl, here, fun _ member => absurd member List.not_mem_nil⟩
    next other =>
      obtain ⟨_, later, rfl⟩ := Option.map_eq_some_iff.mp found
      obtain ⟨front, symbol, behind, rfl, rfl, cut, free⟩ := ih later
      refine ⟨first :: front, symbol, behind, rfl, rfl, cut, ?_⟩
      exact List.forall_mem_cons.mpr ⟨Bool.eq_false_iff.mpr other, free⟩

/-- What is found ends a front that holds no delimiter. -/
theorem findFirstOf_some {pos second : Nat} (found : input.findFirstOf delimiter pos = some second) :
    ∃ front symbol, input.drop pos = front ++ symbol :: input.drop (second + 1) ∧ second = pos + front.length ∧
      delimiter.contains symbol ∧ ∀ ch ∈ front, delimiter.contains ch = false := by
  obtain ⟨_, here, rfl⟩ := Option.map_eq_some_iff.mp found
  obtain ⟨front, symbol, behind, rest, rfl, cut, free⟩ := findIdx_some here
  refine ⟨front, symbol, ?_, rfl, cut, free⟩
  rw [Nat.add_assoc, ← List.drop_drop, rest, ← List.drop_drop, List.drop_left, List.drop_succ_cons, List.drop_zero]

theorem findFirstOf_none {pos : Nat} (absent : input.findFirstOf delimiter pos = none) :
    ∀ ch ∈ input.drop pos, delimiter.contains ch = false := by
  rw [StdString.findFirstOf, Option.map_eq_none_iff, List.findIdx?_eq_none_iff] at absent
  exact absent

/-- The parts so far, followed by what the rest will give. -/
def Splitted (input delimiter : StdString) (state : Split StdString) : Prop :=
  state.parts ++ tokens delimiter (input.drop state.prev) = tokens delimiter input

theorem Splitted.goes {state next : Split StdString} (splitted : Splitted input delimiter state)
    (moved : splitAnyStep input delimiter state = .inl next) :
    Splitted input delimiter next ∧ input.length - next.prev < input.length - state.prev := by
  rw [splitAnyStep] at moved
  split at moved
  next within =>
    split at moved
    next second found =>
      cases moved
      obtain ⟨front, symbol, rest, rfl, cut, free⟩ := findFirstOf_some found
      refine ⟨?_, by dsimp only; omega⟩
      rw [Splitted, rest, tokens_cut free cut] at splitted
      have part : input.substr state.prev (state.prev + front.length - state.prev) = front := by
        rw [StdString.substr, rest, Nat.add_sub_cancel_left, List.take_left]
      rw [Splitted, ← splitted, part, ← List.append_assoc]
      apply congrArg (· ++ tokens delimiter _)
      cases front with
      | nil => simp
      | cons ch front => simp
    next => cases moved
  next => cases moved

theorem Splitted.leaves {state : Split StdString} {parts : List StdString} (splitted : Splitted input delimiter state)
    (left : splitAnyStep input delimiter state = .inr parts) : parts = tokens delimiter input := by
  rw [splitAnyStep] at left
  split at left
  next within =>
    split at left
    next => cases left
    next absent =>
      cases left
      rw [← splitted, tokens_whole (findFirstOf_none absent)]
      exact List.drop_eq_nil_iff.not.mpr (Nat.not_le_of_lt within)
  next outside =>
    cases left
    rw [← splitted, List.drop_eq_nil_of_le (Nat.not_lt.mp outside), tokens_nil, List.append_nil]

theorem splitAny_ends (input delimiter : StdString) {steps : Nat} (enough : input.length < steps) :
    splitAny steps input delimiter = some (tokens delimiter input) := by
  obtain ⟨parts, ends, same⟩ := Loops.ends_of_measure (fun state => input.length - state.prev)
    (fun _ _ splitted => splitted.goes) (fun _ _ splitted => splitted.leaves)
    (show Splitted input delimiter {} from rfl)
  rw [← same]
  exact ends steps enough

theorem singleton_contains (symbol : Char) : List.contains [symbol] = (· == symbol) := by
  funext ch
  rw [List.contains_cons, List.contains_nil, Bool.or_false]

/-- The split at one character gives back the pieces with the empty ones. -/
theorem split_pieces (input : StdString) (partsExpected : PartsExpected) (symbol : Char) {steps : Nat}
    (enough : input.length < steps) :
    split steps input partsExpected [symbol] = some (input.splitOnP (List.contains [symbol])) := by
  obtain ⟨views, ends, splits⟩ := splitTo_ends (List.cons_ne_nil symbol []) input []
  have lacks : ∀ part ∈ views.map (View.text input), symbol ∉ part := by
    intro part member held
    obtain ⟨view, shown, rfl⟩ := List.mem_map.mp member
    exact (splits.clean view shown).free ((List.singleton_infix_iff symbol _).mpr held)
  have nonempty : views.map (View.text input) ≠ [] := List.map_eq_nil_iff.not.mpr splits.nonempty
  have pieces := List.splitOn_intercalate symbol lacks nonempty
  rw [splits.joined] at pieces
  rw [split_shows _ _ _ [], ends steps enough, Option.map_some, singleton_contains, ← pieces]
  rfl

/-- Whatever the delimiters are, the split ends with the pieces between them that are
not empty, in their order; at one delimiter they are those of the other split. -/
theorem splitAny_exact (input delimiter : StdString) (steps : Nat) (enough : input.length < steps) :
    splitAny steps input delimiter = some ((input.splitOnP delimiter.contains).filter (· ≠ [])) ∧
    ∀ symbol partsExpected, delimiter = [symbol] →
      splitAny steps input delimiter = (split steps input partsExpected delimiter).map (·.filter (· ≠ [])) := by
  refine ⟨splitAny_ends input delimiter enough, ?_⟩
  rintro symbol partsExpected rfl
  rw [splitAny_ends input [symbol] enough, split_pieces input partsExpected symbol enough, Option.map_some, tokens]

/-- Delimiters at both ends and side by side. -/
theorem splitAny_exact_spaced :
    splitAny 9 [' ', 'a', 'b', ',', ' ', 'c', ' '] [' ', ','] = some [['a', 'b'], ['c']] :=
  (splitAny_exact [' ', 'a', 'b', ',', ' ', 'c', ' '] [' ', ','] 9 (by decide)).1.trans (by decide)

end TradingCore.Proofs.SplitTokens
