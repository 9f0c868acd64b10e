import Mathlib.Algebra.Group.Nat.Even
import TradingCore.Foundation.Cuts
import TradingCore.Utilities.CSVReader

/-! A line of comma-separated values against the fields it was made of. Each
kind of quotes is toggled on its own, also within the other kind, so a lone
apostrophe in a quoted field hides all commas up to the next one. -/

namespace TradingCore.Proofs.CsvFields
open Utilities Utilities.CSVReader

/-- The two flags of the scanner. -/
structure Quotes where
  single : Bool := false
  double : Bool := false
deriving DecidableEq

def toggle (quotes : Quotes) (ch : Char) : Quotes :=
  if ch = dQuotesSymbol then { quotes with double := !quotes.double }
  else if ch = sQuotesSymbol then { quotes with single := !quotes.single }
  else quotes

def separates (quotes : Quotes) (ch : Char) : Bool := ch = delimiter ∧ ¬ quotes.double ∧ ¬ quotes.single

/-- The fields of a line; an empty line has none. -/
def fieldsOf (line : StdString) : List StdString :=
  if line.isEmpty then [] else Cuts.pieces toggle separates {} line

theorem substr_append {line rest : StdString} {ch : Char} {pos idx : Nat} (within : pos ≤ idx)
    (reads : line.drop idx = ch :: rest) : line.substr pos (idx + 1 - pos) = line.substr pos (idx - pos) ++ [ch] := by
  have next : (line.drop pos)[idx - pos]? = some ch := by
    have at_idx : (line.drop idx)[0]? = some ch := by rw [reads]; rfl
    rw [List.getElem?_drop] at at_idx ⊢
    rw [Nat.add_sub_cancel' within]
    exact at_idx
  rw [StdString.substr, StdString.substr, Nat.sub_add_comm within, List.take_add_one, next]
  rfl

def flags (state : Scan) : Quotes := ⟨state.sQuotes, state.dQuotes⟩

/-- The part of the line between the last cut and the scanner. -/
def current (line : StdString) (state : Scan) : StdString := line.substr state.prev (state.idx - state.prev)

def extended (parts : Row) (fields : List StdString) : Row :=
  { parts with values := parts.values ++ fields.map Value.mk }

theorem extended_append (parts : Row) (first rest : List StdString) :
    extended (extended parts first) rest = extended parts (first ++ rest) := by
  rw [extended, extended, extended, List.map_append, List.append_assoc]

theorem idx_scan (line : StdString) (state : Scan) (ch : Char) : (scan line state ch).idx = state.idx + 1 := by
  rw [scan]
  split_ifs <;> rfl

theorem flags_scan (line : StdString) (state : Scan) (ch : Char) :
    flags (scan line state ch) = toggle (flags state) ch := by
  rw [scan, toggle]
  split_ifs <;> rfl

theorem scan_uncut (line : StdString) {state : Scan} {ch : Char} (uncut : separates (flags state) ch = false) :
    (scan line state ch).prev = state.prev ∧ (scan line state ch).parts = state.parts := by
  rw [separates, decide_eq_false_iff_not] at uncut
  rw [scan]
  dsimp only [flags] at uncut ⊢
  split_ifs <;> exact ⟨rfl, rfl⟩

theorem toggle_cut {quotes : Quotes} {ch : Char} (cut : separates quotes ch = true) : toggle quotes ch = quotes := by
  rw [separates, decide_eq_true_eq] at cut
  rw [toggle, cut.1]
  rfl

theorem scan_cut (line : StdString) {state : Scan} {ch : Char} (cut : separates (flags state) ch = true) :
    (scan line state ch).prev = state.idx + 1 ∧
    (scan line state ch).parts = extended state.parts [current line state] := by
  rw [separates, decide_eq_true_eq] at cut
  rw [scan, cut.1]
  dsimp only [flags] at cut ⊢
  rw [if_neg (by decide), if_neg (by decide), if_pos ⟨rfl, cut.2⟩]
  exact ⟨rfl, rfl⟩

/-- The scanner gives the pieces out one by one and keeps the start of the
last. -/
theorem scanned (line : StdString) {rest : StdString} {state : Scan} (reads : line.drop state.idx = rest)
    (within : state.prev ≤ state.idx) :
    extended (rest.foldl (scan line) state).parts [current line (rest.foldl (scan line) state)] =
      extended state.parts
        ((Cuts.pieces toggle separates (flags state) rest).modifyHead (current line state ++ ·)) := by
  induction rest generalizing state with
  | nil => simp [Cuts.pieces]
  | cons ch rest ih =>
    have later : line.drop (scan line state ch).idx = rest := by
      rw [idx_scan, ← List.drop_drop, reads]
      rfl
    rw [List.foldl_cons]
    cases cut : separates (flags state) ch with
    | false =>
      obtain ⟨prev, parts⟩ := scan_uncut line cut
      have within' : (scan line state ch).prev ≤ (scan line state ch).idx := by
        rw [prev, idx_scan]
        exact Nat.le_succ_of_le within
      have grown : current line (scan line state ch) = current line state ++ [ch] := by
        rw [current, prev, idx_scan]
        exact substr_append within reads
      rw [ih later within', flags_scan, parts, grown, Cuts.pieces_uncut cut, List.modifyHead_modifyHead]
      simp [Function.comp_def]
    | true =>
      obtain ⟨prev, parts⟩ := scan_cut line cut
      have within' : (scan line state ch).prev ≤ (scan line state ch).idx := by
        rw [prev, idx_scan]
      have fresh : current line (scan line state ch) = [] := by
        rw [current, prev, idx_scan, Nat.sub_self]
        exact List.take_zero
      rw [ih later within', flags_scan, parts, fresh, Cuts.modifyHead_nil_append, Cuts.pieces_cut cut,
        toggle_cut cut, extended_append, List.modifyHead_cons, List.append_nil]
      rfl

/-- A line adds its fields to a row; the count of an empty line is zero, that of
any other one the size of the row. -/
theorem parseLine_eq (line : StdString) (parts : Row) :
    parseLine line parts =
      (if line.isEmpty then 0 else parts.size + (fieldsOf line).length,
        { parts with values := parts.values ++ (fieldsOf line).map Value.mk }) := by
  rw [parseLine, fieldsOf]
  split
  next => simp
  next =>
    have read := @scanned line line { parts } rfl (Nat.le_refl _)
    have fresh : current line { parts } = [] := rfl
    rw [fresh, Cuts.modifyHead_nil_append] at read
    have row : (line.foldl (scan line) { parts }).parts.emplaceValue line (line.foldl (scan line) { parts }).prev
        ((line.foldl (scan line) { parts }).idx - (line.foldl (scan line) { parts }).prev) =
          extended parts (Cuts.pieces toggle separates {} line) := read
    dsimp only
    rw [row, extended, Row.size, List.length_append, List.length_map, Row.size]

end TradingCore.Proofs.CsvFields
