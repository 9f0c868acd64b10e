import Mathlib.Data.List.Infix
import TradingCore.Utilities.StringUtilities

/-! Splitting a string at a delimiter. Every search finds the leftmost delimiter
behind the last one, so nothing in front of it contains one, whether or not
delimiters overlap. -/

namespace TradingCore.Proofs.Splitting
open Utilities Utilities.StringUtilities

theorem findFrom_none {delimiter rest : StdString} {pos : Nat}
    (absent : StdString.findFrom delimiter rest pos = none) : ¬ delimiter <:+: rest := by
  induction rest generalizing pos with
  | nil =>
    rw [StdString.findFrom] at absent
    simpa using absent
  | cons ch rest ih =>
    rw [StdString.findFrom] at absent
    split at absent
    next => cases absent
    next other =>
      rw [List.infix_cons_iff, not_or, ← List.isPrefixOf_iff_prefix]
      exact ⟨other, ih absent⟩

theorem findFrom_some {delimiter rest : StdString} {pos found : Nat} (nonempty : delimiter ≠ [])
    (occurs : StdString.findFrom delimiter rest pos = some found) :
    ∃ front behind, rest = front ++ delimiter ++ behind ∧ found = pos + front.length ∧ ¬ delimiter <:+: front := by
  induction rest generalizing pos with
  | nil =>
    rw [StdString.findFrom] at occurs
    simp [nonempty] at occurs
  | cons ch rest ih =>
    rw [StdString.findFrom] at occurs
    split at occurs
    next here =>
      obtain ⟨behind, same⟩ := List.isPrefixOf_iff_prefix.mp here
      exact ⟨[], behind, same.symm, (Option.some.inj occurs).symm, by simpa using nonempty⟩
    next other =>
      obtain ⟨front, behind, rfl, rfl, free⟩ := ih occurs
      refine ⟨ch :: front, behind, rfl, by simp only [List.length_cons]; omega, ?_⟩
      rw [List.infix_cons_iff, not_or]
      refine ⟨?_, free⟩
      intro start
      apply other
      rw [List.isPrefixOf_iff_prefix, List.append_assoc]
      exact start.trans (List.prefix_append (ch :: front) _)

theorem find_none {str delimiter : StdString} {pos : Nat} (within : pos ≤ str.length)
    (absent : str.find delimiter pos = none) : ¬ delimiter <:+: str.drop pos := by
  rw [StdString.find, if_pos within] at absent
  exact findFrom_none absent

theorem find_some {str delimiter : StdString} {pos found : Nat} (nonempty : delimiter ≠ [])
    (occurs : str.find delimiter pos = some found) :
    ∃ front behind, str.drop pos = front ++ delimiter ++ behind ∧ found = pos + front.length ∧
      ¬ delimiter <:+: front := by
  rw [StdString.find] at occurs
  split at occurs
  next => exact findFrom_some nonempty occurs
  next => cases occurs

theorem find_empty {str : StdString} {pos : Nat} (within : pos ≤ str.length) : str.find [] pos = some pos := by
  rw [StdString.find, if_pos within]
  cases str.drop pos <;> rfl

theorem intercalate_snoc (delimiter : StdString) (parts : List StdString) (last : StdString) :
    delimiter.intercalate (parts ++ [last]) = parts.flatMap (· ++ delimiter) ++ last := by
  induction parts with
  | nil => exact List.intercalate_singleton
  | cons part parts ih =>
    have more : parts ++ [last] ≠ [] := by simp
    rw [List.cons_append, List.intercalate_cons_of_ne_nil more, ih, List.flatMap_cons, List.append_assoc,
      List.append_assoc, List.append_assoc]

/-- A view lies in the string and shows a part of it without the delimiter. -/
structure Clean (str delimiter : StdString) (view : View) : Prop where
  within : view.pos + view.length ≤ str.length
  free : ¬ delimiter <:+: view.text str

/-- The parts so far, each with the delimiter that ended it, are what the split
has gone past. -/
structure Covers (str delimiter : StdString) (state : Split View) : Prop where
  within : state.prev ≤ str.length
  joined : (state.parts.map (View.text str)).flatMap (· ++ delimiter) ++ str.drop state.prev = str
  clean : ∀ view ∈ state.parts, Clean str delimiter view

/-- Views that join to the string, none of them with a delimiter in it. -/
structure Splits (str delimiter : StdString) (views : List View) : Prop where
  nonempty : views ≠ []
  joined : delimiter.intercalate (views.map (View.text str)) = str
  clean : ∀ view ∈ views, Clean str delimiter view

theorem Covers.clean_snoc {str delimiter : StdString} {state : Split View} (covers : Covers str delimiter state)
    {last : View} (clean : Clean str delimiter last) : ∀ view ∈ state.parts ++ [last], Clean str delimiter view := by
  intro view member
  rcases List.mem_append.mp member with earlier | added
  · exact covers.clean view earlier
  · rw [List.mem_singleton] at added
    rwa [added]

theorem Covers.goes {str delimiter : StdString} (nonempty : delimiter ≠ []) {state next : Split View}
    (covers : Covers str delimiter state) (moved : splitStep View.mk str delimiter state = .inl next) :
    Covers str delimiter next ∧ str.length - next.prev < str.length - state.prev := by
  rw [splitStep] at moved
  split at moved
  next pos occurs =>
    cases moved
    obtain ⟨front, behind, rest, rfl, free⟩ := find_some nonempty occurs
    have lengths := congrArg List.length rest
    rw [List.length_drop, List.length_append, List.length_append] at lengths
    have some := List.length_pos_of_ne_nil nonempty
    have text : View.text str ⟨state.prev, state.prev + front.length - state.prev⟩ = front := by
      rw [View.text, StdString.substr, rest, Nat.add_sub_cancel_left, List.append_assoc, List.take_left]
    have drop : str.drop (state.prev + front.length + delimiter.length) = behind := by
      rw [Nat.add_assoc, ← List.drop_drop, rest, ← List.length_append, List.drop_left]
    refine ⟨⟨?_, ?_, ?_⟩, ?_⟩
    · show state.prev + front.length + delimiter.length ≤ str.length
      omega
    · have before := covers.joined
      rw [rest] at before
      rw [List.map_append, List.flatMap_append, List.map_singleton, List.flatMap_singleton, text, drop]
      rwa [List.append_assoc]
    · apply covers.clean_snoc
      refine ⟨?_, by rwa [text]⟩
      show state.prev + (state.prev + front.length - state.prev) ≤ str.length
      omega
    · show str.length - (state.prev + front.length + delimiter.length) < str.length - state.prev
      omega
  next => cases moved

theorem Covers.leaves {str delimiter : StdString} {state : Split View} {views : List View}
    (covers : Covers str delimiter state) (left : splitStep View.mk str delimiter state = .inr views) :
    Splits str delimiter views := by
  rw [splitStep] at left
  split at left
  next => cases left
  next absent =>
    cases left
    have text : View.text str ⟨state.prev, str.length - state.prev⟩ = str.drop state.prev := by
      rw [View.text, StdString.substr]
      exact List.take_of_length_le (by rw [List.length_drop])
    refine ⟨by simp, ?_, ?_⟩
    · rw [List.map_append, List.map_singleton, intercalate_snoc, text]
      exact covers.joined
    · apply covers.clean_snoc
      refine ⟨?_, ?_⟩
      · have within := covers.within
        show state.prev + (str.length - state.prev) ≤ str.length
        omega
      · rw [text]
        exact find_none covers.within absent

theorem covers_start (str delimiter : StdString) : Covers str delimiter {} where
  within := Nat.zero_le _
  joined := rfl
  clean _ member := absurd member List.not_mem_nil

theorem splitTo_ends {delimiter : StdString} (nonempty : delimiter ≠ []) (str : StdString) (parts : List View) :
    ∃ views, (∀ steps, str.length < steps → splitTo steps str parts delimiter = some views) ∧
      Splits str delimiter views :=
  Loops.ends_of_measure (fun state => str.length - state.prev) (fun _ _ covers => covers.goes nonempty)
    (fun _ _ covers => covers.leaves) (covers_start str delimiter)

def shownBy (str : StdString) (state : Split View) : Split StdString := ⟨state.prev, state.parts.map (View.text str)⟩

/-- Both splits take the same steps. -/
theorem split_shows (steps : Nat) (str : StdString) (partsExpected : PartsExpected) (parts : List View)
    (delimiter : StdString) : split steps str partsExpected delimiter =
      (splitTo steps str parts delimiter).map (·.map (View.text str)) := by
  have alike : ∀ state, splitStep str.substr str delimiter (shownBy str state) =
      (splitStep View.mk str delimiter state).map (shownBy str) (·.map (View.text str)) := by
    intro state
    rw [splitStep, splitStep, shownBy]
    cases str.find delimiter state.prev with
    | some pos => simp [shownBy, View.text]
    | none => simp [View.text]
  exact Loops.iterate_map alike steps {}

/-- With a delimiter, both splits end after as many rounds as there are characters
at most, and joining their parts gives the string back. -/
theorem split_inverts_join {delimiter : StdString} (nonempty : delimiter ≠ []) (str : StdString)
    (partsExpected : PartsExpected) (old : List View) :
    ∃ parts views, (∀ steps, str.length < steps →
        split steps str partsExpected delimiter = some parts ∧ splitTo steps str old delimiter = some views) ∧
      views.map (View.text str) = parts ∧ (∀ view ∈ views, view.pos + view.length ≤ str.length) ∧
      parts ≠ [] ∧ delimiter.intercalate parts = str ∧ ∀ part ∈ parts, ¬ delimiter <:+: part := by
  obtain ⟨views, ends, splits⟩ := splitTo_ends nonempty str old
  refine ⟨views.map (View.text str), views, ?_, rfl, ?_, ?_, splits.joined, ?_⟩
  · intro steps enough
    refine ⟨?_, ends steps enough⟩
    rw [split_shows steps str partsExpected old, ends steps enough, Option.map_some]
  · exact fun view member => (splits.clean view member).within
  · rw [ne_eq, List.map_eq_nil_iff]
    exact splits.nonempty
  · intro part member
    obtain ⟨view, held, rfl⟩ := List.mem_map.mp member
    exact (splits.clean view held).free

/-- As many parts as are expected by default. -/
def tenParts : PartsExpected := ⟨10, by decide⟩

/-- A delimiter that overlaps itself, in a string that ends within one. -/
theorem split_inverts_join_overlapping :
    ∃ parts views, (∀ steps, 5 < steps → split steps ['-', '-', '-', 'a', '-'] tenParts ['-', '-'] = some parts ∧
        splitTo steps ['-', '-', '-', 'a', '-'] [] ['-', '-'] = some views) ∧
      views.map (View.text ['-', '-', '-', 'a', '-']) = parts ∧ (∀ view ∈ views, view.pos + view.length ≤ 5) ∧
      parts ≠ [] ∧ List.intercalate ['-', '-'] parts = ['-', '-', '-', 'a', '-'] ∧
      ∀ part ∈ parts, ¬ ['-', '-'] <:+: part :=
  split_inverts_join (List.cons_ne_nil _ _) ['-', '-', '-', 'a', '-'] tenParts []

/-- An empty delimiter is found where the search begins, so the next search begins
there as well. -/
theorem splits_forever {α : Type} (part : Nat → Nat → α) (str : StdString) :
    ¬ Loops.Terminates (splitStep part str []) {} := by
  have goes : ∀ state : Split α, state.prev ≤ str.length →
      ∃ next, splitStep part str [] state = .inl next ∧ next.prev ≤ str.length := by
    intro state within
    rw [splitStep, find_empty within]
    exact ⟨_, rfl, within⟩
  exact Loops.not_terminates goes (Nat.zero_le _)

/-- Both splits end exactly when there is a delimiter. -/
theorem split_ends_iff (str delimiter : StdString) (partsExpected : PartsExpected) (old : List View) :
    ((∃ steps parts, split steps str partsExpected delimiter = some parts) ↔ delimiter ≠ []) ∧
    ((∃ steps views, splitTo steps str old delimiter = some views) ↔ delimiter ≠ []) := by
  constructor
  · constructor
    · rintro ends rfl
      exact splits_forever str.substr str ends
    · intro nonempty
      obtain ⟨views, ends, _⟩ := splitTo_ends nonempty str old
      refine ⟨str.length + 1, views.map (View.text str), ?_⟩
      rw [split_shows _ _ _ old, ends _ (Nat.lt_succ_self _), Option.map_some]
  · constructor
    · rintro ends rfl
      exact splits_forever View.mk str ends
    · intro nonempty
      obtain ⟨views, ends, _⟩ := splitTo_ends nonempty str old
      exact ⟨str.length + 1, views, ends _ (Nat.lt_succ_self _)⟩

theorem empty_delimiter_never_ends :
    ¬ (∃ steps parts, split steps ['a', 'b'] tenParts [] = some parts) ∧
    ¬ ∃ steps views, splitTo steps ['a', 'b'] [] [] = some views :=
  ⟨splits_forever (StdString.substr ['a', 'b']) ['a', 'b'], splits_forever View.mk ['a', 'b']⟩

end TradingCore.Proofs.Splitting
