import TradingCore.Proofs.CsvFields

/-! Lines made of plain and of quoted fields. Double quotes protect the commas
within a field, but the apostrophes within it still count, and an odd number of
them protects the comma behind the field as well. -/

namespace TradingCore.Proofs.CsvLines
open Utilities Utilities.CSVReader CsvFields

def Plain (field : StdString) : Prop :=
  ∀ ch ∈ field, ch ≠ delimiter ∧ ch ≠ dQuotesSymbol ∧ ch ≠ sQuotesSymbol

instance (field : StdString) : Decidable (Plain field) := List.decidableBAll _ field

def Quoted (field : StdString) : Prop :=
  ∃ body, field = dQuotesSymbol :: (body ++ [dQuotesSymbol]) ∧ dQuotesSymbol ∉ body

def joined (fields : List StdString) : StdString := [delimiter].intercalate fields

def apostrophes (field : StdString) : Nat := field.count sQuotesSymbol

/-- An odd number of apostrophes toggles the flag. -/
def odd (count : Nat) : Bool := decide (¬ Even count)

theorem odd_succ (count : Nat) : odd (count + 1) = !odd count := by
  rw [odd, odd, ← decide_not]
  exact decide_eq_decide.mpr (not_congr Nat.even_add_one)

/-- The scanner reads on without a cut, with these flags at the end. -/
structure Reads (quotes : Quotes) (text : StdString) (last : Quotes) : Prop where
  uncut : Runs.Along toggle (fun quotes ch => separates quotes ch = false) quotes text
  last : Runs.after toggle quotes text = last

theorem Reads.nil (quotes : Quotes) : Reads quotes [] quotes := ⟨trivial, rfl⟩

theorem Reads.cons {quotes last : Quotes} {ch : Char} {text : StdString} (uncut : separates quotes ch = false)
    (reads : Reads (toggle quotes ch) text last) : Reads quotes (ch :: text) last :=
  ⟨⟨uncut, reads.uncut⟩, reads.last⟩

theorem Reads.append {quotes middle last : Quotes} {text rest : StdString} (first : Reads quotes text middle)
    (reads : Reads middle rest last) : Reads quotes (text ++ rest) last := by
  constructor
  · rw [Runs.along_append, first.last]
    exact ⟨first.uncut, reads.uncut⟩
  · rw [Runs.after_append, first.last]
    exact reads.last

theorem reads_plain {field : StdString} (plain : Plain field) (quotes : Quotes) : Reads quotes field quotes := by
  induction field with
  | nil => exact .nil quotes
  | cons ch field ih =>
    obtain ⟨comma, double, single⟩ := plain ch List.mem_cons_self
    have same : toggle quotes ch = quotes := by rw [toggle, if_neg double, if_neg single]
    apply Reads.cons
    · simp [separates, comma]
    · rw [same]
      exact ih fun other member => plain other (List.mem_cons_of_mem ch member)

/-- Between double quotes nothing separates, and every apostrophe toggles. -/
theorem reads_body {body : StdString} (inside : dQuotesSymbol ∉ body) (single : Bool) :
    Reads ⟨single, true⟩ body ⟨single ^^ odd (apostrophes body), true⟩ := by
  induction body generalizing single with
  | nil =>
    have none : (single ^^ odd 0) = single := Bool.xor_false single
    rw [apostrophes, List.count_nil, none]
    exact .nil _
  | cons ch body ih =>
    obtain ⟨other, inside⟩ := List.ne_and_not_mem_of_not_mem_cons inside
    apply Reads.cons
    · simp [separates]
    · rw [toggle, if_neg (Ne.symm other), apostrophes, List.count_cons]
      by_cases apostrophe : ch = sQuotesSymbol
      · rw [if_pos apostrophe, if_pos (beq_iff_eq.mpr apostrophe), odd_succ, ← Bool.not_xor_not, Bool.not_not]
        exact ih inside (!single)
      · rw [if_neg apostrophe, if_neg (by simpa using apostrophe)]
        exact ih inside single

theorem reads_field {field : StdString} (simple : Plain field ∨ Quoted field) (single : Bool) :
    Reads ⟨single, false⟩ field ⟨single ^^ odd (apostrophes field), false⟩ := by
  rcases simple with plain | quoted
  · have none : apostrophes field = 0 := List.count_eq_zero.mpr fun member => (plain _ member).2.2 rfl
    have same : (single ^^ odd 0) = single := Bool.xor_false single
    rw [none, same]
    exact reads_plain plain _
  · obtain ⟨body, rfl, inside⟩ := quoted
    have count : apostrophes (dQuotesSymbol :: (body ++ [dQuotesSymbol])) = apostrophes body := by
      simp [apostrophes, dQuotesSymbol, sQuotesSymbol]
    rw [count]
    apply Reads.cons (by decide +revert)
    exact (reads_body inside single).append (.cons (by simp [separates]) (.nil _))

/-- Every comma between two fields finds both flags down. -/
def Settled : Bool → List StdString → Prop
  | single, field :: next :: rest => (single ^^ odd (apostrophes field)) = false ∧ Settled false (next :: rest)
  | _, _ => True

theorem settled_iff (fields : List StdString) :
    Settled false fields ↔ ∀ field ∈ fields.dropLast, Even (apostrophes field) := by
  induction fields with
  | nil => exact iff_of_true trivial (fun _ member => absurd member List.not_mem_nil)
  | cons field fields ih =>
    cases fields with
    | nil => exact iff_of_true trivial (fun _ member => absurd member List.not_mem_nil)
    | cons next rest =>
      rw [Settled, ih, List.dropLast_cons_of_ne_nil (List.cons_ne_nil next rest), List.forall_mem_cons, Bool.false_xor,
        odd, decide_eq_false_iff_not, not_not]

theorem pieces_last {single : Bool} {field : StdString} (simple : Plain field ∨ Quoted field) :
    Cuts.pieces toggle separates ⟨single, false⟩ field = [field] :=
  Cuts.pieces_whole (reads_field simple single).uncut

/-- The comma behind a field is cut at, or protected by an apostrophe. -/
theorem pieces_comma {field : StdString} (simple : Plain field ∨ Quoted field) (single : Bool) (rest : StdString) :
    Cuts.pieces toggle separates ⟨single, false⟩ (field ++ delimiter :: rest) =
      if single ^^ odd (apostrophes field) then
        (Cuts.pieces toggle separates ⟨true, false⟩ rest).modifyHead (field ++ delimiter :: ·)
      else field :: Cuts.pieces toggle separates {} rest := by
  have reads := reads_field simple single
  rw [Cuts.pieces_append reads.uncut, reads.last]
  cases single ^^ odd (apostrophes field) with
  | false => rw [Cuts.pieces_cut (by decide), List.modifyHead_cons, List.append_nil]; rfl
  | true => rw [Cuts.pieces_uncut (by decide), List.modifyHead_modifyHead]; rfl

/-- The line never falls into more pieces than it has fields, and into these
exactly if no comma between them is protected. -/
theorem pieces_joined {fields : List StdString} (some : fields ≠ [])
    (simple : ∀ field ∈ fields, Plain field ∨ Quoted field) (single : Bool) :
    (Cuts.pieces toggle separates ⟨single, false⟩ (joined fields)).length ≤ fields.length ∧
    (Cuts.pieces toggle separates ⟨single, false⟩ (joined fields) = fields ↔ Settled single fields) := by
  induction fields generalizing single with
  | nil => exact absurd rfl some
  | cons field fields ih =>
    obtain ⟨first, others⟩ := List.forall_mem_cons.mp simple
    cases fields with
    | nil =>
      rw [joined, List.intercalate_singleton, pieces_last first]
      exact ⟨Nat.le_refl _, iff_of_true rfl trivial⟩
    | cons next rest =>
      have line : joined (field :: next :: rest) = field ++ delimiter :: joined (next :: rest) := by
        rw [joined, List.intercalate_cons_cons, List.append_assoc]
        rfl
      rw [line, pieces_comma first, Settled]
      obtain ⟨fewer, same⟩ := ih (List.cons_ne_nil next rest) others (single ^^ odd (apostrophes field))
      cases hidden : single ^^ odd (apostrophes field) with
      | false =>
        rw [hidden] at fewer same
        rw [if_neg Bool.false_ne_true, List.cons.injEq, and_iff_right rfl, and_iff_right rfl]
        exact ⟨Nat.succ_le_succ fewer, same⟩
      | true =>
        rw [hidden] at fewer
        rw [if_pos rfl, List.length_modifyHead]
        refine ⟨Nat.le_succ_of_le fewer, iff_of_false ?_ (by simp)⟩
        intro equal
        have lengths := congrArg List.length equal
        rw [List.length_modifyHead, List.length_cons] at lengths
        omega

/-- A line of plain and quoted fields is read back as these fields exactly when
no field but the last has an odd number of apostrophes. -/
theorem line_roundtrip_iff {fields : List StdString} (some : fields ≠ [])
    (simple : ∀ field ∈ fields, Plain field ∨ Quoted field) (written : joined fields ≠ []) :
    parseLine (joined fields) {} = (fields.length, { values := fields.map Value.mk }) ↔
      ∀ field ∈ fields.dropLast, Even (apostrophes field) := by
  have nonempty : ¬ (joined fields).isEmpty := by simpa using written
  rw [parseLine_eq, fieldsOf, if_neg nonempty, if_neg nonempty, ← settled_iff, ← (pieces_joined some simple false).2]
  constructor
  · intro read
    have values := congrArg (fun result => result.2.values.map Value.data) read
    simpa [Function.comp_def] using values
  · intro same
    rw [same]
    simp [Row.size]

/-- A quoted text with a comma and one apostrophe, and a plain one. -/
def quotedLater : List StdString :=
  [['"', 'S', 'o', 'r', 'r', 'y', ',', ' ', 'I', '\'', 'l', 'l', '"'], ['h', 'a', 'm']]

theorem apostrophe_hides_comma :
    (∀ field ∈ quotedLater, Plain field ∨ Quoted field) ∧ joined quotedLater ≠ [] ∧
    parseLine (joined quotedLater) {} ≠ (quotedLater.length, { values := quotedLater.map Value.mk }) := by
  refine ⟨?_, by decide, ?_⟩
  · rw [quotedLater, List.forall_mem_cons, List.forall_mem_singleton]
    exact ⟨Or.inr ⟨['S', 'o', 'r', 'r', 'y', ',', ' ', 'I', '\'', 'l', 'l'], rfl, by decide⟩, Or.inl (by decide)⟩
  · intro read
    have count := congrArg Prod.fst read
    revert count
    decide

/-- The same with the comma but without the apostrophe. -/
theorem line_roundtrip_ham :
    parseLine (joined [['"', 'a', ',', 'b', '"'], ['h', 'a', 'm']]) {} =
      (2, { values := [⟨['"', 'a', ',', 'b', '"']⟩, ⟨['h', 'a', 'm']⟩] }) := by
  have simple : ∀ field ∈ [['"', 'a', ',', 'b', '"'], ['h', 'a', 'm']], Plain field ∨ Quoted field := by
    rw [List.forall_mem_cons, List.forall_mem_singleton]
    exact ⟨Or.inr ⟨['a', ',', 'b'], rfl, by decide⟩, Or.inl (by decide)⟩
  exact (line_roundtrip_iff (List.cons_ne_nil _ _) simple (by decide)).mpr (by decide)

end TradingCore.Proofs.CsvLines
