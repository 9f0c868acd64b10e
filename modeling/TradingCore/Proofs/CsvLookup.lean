import TradingCore.Foundation.MapEdits
import TradingCore.Proofs.CsvFields

/-! Looking a value up by its header. The column comes from the header line and
the length of a row from its own line, and nothing compares the two. -/

namespace TradingCore.Proofs.CsvLookup
open Std Utilities Utilities.CSVReader CsvFields

/-- The last column under a name, counted from zero. -/
def lastColumn (name : StdString) : List StdString → Option Nat
  | [] => none
  | hdr :: rest =>
    match lastColumn name rest with
    | some column => some (column + 1)
    | none => if hdr = name then some 0 else none

/-- A lookup finds no header, or a value of the row. -/
def InBounds (headers : Headers) (row : Row) (name : StdString) : Prop :=
  (headers[name]? = none ∧ row.valueOf name = some {}) ∨
  ∃ idx, headers[name]? = some idx ∧ idx.toNat < row.values.length

theorem lastColumn_some {name : StdString} {hdr : StdString} {rest : List StdString} {column : Nat}
    (later : lastColumn name rest = some column) : lastColumn name (hdr :: rest) = some (column + 1) := by
  rw [lastColumn, later]

theorem lastColumn_none {name : StdString} {hdr : StdString} {rest : List StdString}
    (absent : lastColumn name rest = none) :
    lastColumn name (hdr :: rest) = if hdr = name then some 0 else none := by
  rw [lastColumn, absent]

theorem lastColumn_append (name : StdString) (names : List StdString) :
    lastColumn name (names ++ [name]) = some names.length := by
  induction names with
  | nil => exact if_pos rfl
  | cons hdr rest ih => exact lastColumn_some ih

theorem lastColumn_less {name : StdString} {names : List StdString} {column : Nat}
    (last : lastColumn name names = some column) : column < names.length := by
  induction names generalizing column with
  | nil => cases last
  | cons hdr rest ih =>
    cases later : lastColumn name rest with
    | some found =>
      rw [lastColumn_some later] at last
      cases last
      exact Nat.succ_lt_succ (ih later)
    | none =>
      rw [lastColumn_none later] at last
      split at last
      next =>
        cases last
        exact Nat.succ_pos _
      next => cases last

theorem getElem?_addHeaders (names : List StdString) (headers : Headers) (start : UInt16) (name : StdString) :
    ((names.map Value.mk).foldl addHeader (headers, start)).1[name]? =
      ((lastColumn name names).map (start + UInt16.ofNat ·)).or headers[name]? := by
  induction names generalizing headers start with
  | nil => rfl
  | cons hdr rest ih =>
    rw [List.map_cons, List.foldl_cons, addHeader, ih]
    cases later : lastColumn name rest with
    | some column =>
      rw [lastColumn_some later, Option.map_some, Option.map_some, Option.some_or, Option.some_or, UInt16.ofNat_add,
        UInt16.add_assoc, UInt16.add_comm (UInt16.ofNat column)]
      rfl
    | none =>
      rw [lastColumn_none later, Option.map_none, Option.none_or, MapEdits.getElem?_insert]
      by_cases own : hdr = name
      · rw [if_pos own, if_pos own, Option.map_some, Option.some_or]
        exact congrArg some (UInt16.add_zero start).symm
      · rw [if_neg own, if_neg own, Option.map_none, Option.none_or]

theorem readCsv_header (header : StdString) (lines : List StdString) :
    readCsv (some (header :: lines)) false =
      { headers := columnsOf { values := (fieldsOf header).map Value.mk }
        rows := lines.map fun line =>
          { values := (fieldsOf line).map Value.mk
            headers := some (columnsOf { values := (fieldsOf header).map Value.mk }) } } := by
  simp [readCsv, readRows, parseLine_eq]

theorem getElem?_columnsOf (names : List StdString) (name : StdString) :
    (columnsOf { values := names.map Value.mk })[name]? = (lastColumn name names).map UInt16.ofNat := by
  rw [columnsOf, getElem?_addHeaders]
  cases lastColumn name names with
  | none => rfl
  | some column => exact congrArg some (UInt16.zero_add _)

theorem inBounds_iff (names values : List StdString) (name : StdString) :
    InBounds (columnsOf { values := names.map Value.mk })
        { values := values.map Value.mk, headers := some (columnsOf { values := names.map Value.mk }) } name ↔
      ∀ column, lastColumn name names = some column → column % 2 ^ 16 < values.length := by
  rw [InBounds, getElem?_columnsOf]
  cases last : lastColumn name names with
  | none =>
    refine iff_of_true (Or.inl ⟨rfl, ?_⟩) (fun _ none => by cases none)
    rw [Row.valueOf]
    dsimp only
    rw [getElem?_columnsOf, last]
    rfl
  | some column =>
    simp

/-- The last header is the last of its name, so that a row with a field in the
last column of every name has as many fields as there are headers. -/
theorem covers_iff {names : List StdString} (counted : names.length ≤ 2 ^ 16) (size : Nat) :
    (∀ name column, lastColumn name names = some column → column % 2 ^ 16 < size) ↔ names.length ≤ size := by
  constructor
  · intro covers
    rcases List.eq_nil_or_concat names with rfl | ⟨earlier, name, rfl⟩
    · exact Nat.zero_le size
    · rw [List.concat_eq_append, List.length_append, List.length_singleton] at counted ⊢
      have last := covers name earlier.length (by rw [List.concat_eq_append]; exact lastColumn_append name earlier)
      rw [Nat.mod_eq_of_lt counted] at last
      exact last
  · intro fewer name column last
    have less := lastColumn_less last
    have same : column % 2 ^ 16 = column := Nat.mod_eq_of_lt (Nat.lt_of_lt_of_le less counted)
    rw [same]
    exact Nat.lt_of_lt_of_le less fewer

/-- Every lookup in a file with a header line stays in bounds exactly when each
line has a field in the last column of every name. With no more headers than
the columns can count, that is when no line has fewer fields than the header. -/
theorem lookup_in_bounds_iff (header : StdString) (lines : List StdString) :
    let data := readCsv (some (header :: lines)) false
    ((∀ row ∈ data.rows, ∀ name, InBounds data.headers row name) ↔
      ∀ line ∈ lines, ∀ name column, lastColumn name (fieldsOf header) = some column →
        column % 2 ^ 16 < (fieldsOf line).length) ∧
    ((fieldsOf header).length ≤ 2 ^ 16 →
      ((∀ row ∈ data.rows, ∀ name, InBounds data.headers row name) ↔
        ∀ line ∈ lines, (fieldsOf header).length ≤ (fieldsOf line).length)) := by
  intro data
  have each : (∀ row ∈ data.rows, ∀ name, InBounds data.headers row name) ↔
      ∀ line ∈ lines, ∀ name column, lastColumn name (fieldsOf header) = some column →
        column % 2 ^ 16 < (fieldsOf line).length := by
    have read : data = _ := readCsv_header header lines
    rw [read]
    dsimp only
    rw [List.forall_mem_map]
    exact forall₂_congr fun line _ => forall_congr' fun name => inBounds_iff (fieldsOf header) (fieldsOf line) name
  refine ⟨each, ?_⟩
  intro counted
  rw [each]
  exact forall₂_congr fun line _ => covers_iff counted (fieldsOf line).length

/-- A blank line under two headers leaves a row without values. -/
theorem blank_line_out_of_bounds :
    let data := readCsv (some [['i', 'd', ',', 'n', 'a', 'm', 'e'], []]) false
    (∃ row ∈ data.rows, row.valueOf ['i', 'd'] = none) ∧
    ¬ ∀ row ∈ data.rows, ∀ name, InBounds data.headers row name := by
  intro data
  have row : data.rows = [{ values := [], headers := some data.headers }] := rfl
  have column : data.headers[['i', 'd']]? = some 0 := by decide
  rw [row, List.forall_mem_singleton]
  constructor
  · refine ⟨_, List.mem_singleton_self _, ?_⟩
    rw [Row.valueOf]
    dsimp only
    rw [column]
    rfl
  · intro bounds
    rcases bounds ['i', 'd'] with absent | inside
    · rw [column] at absent
      cases absent.1
    · obtain ⟨_, _, less⟩ := inside
      exact absurd less (Nat.not_lt_zero _)

end TradingCore.Proofs.CsvLookup
