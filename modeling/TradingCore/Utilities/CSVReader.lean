import Std.Data.ExtTreeMap
import TradingCore.Utilities.StdString

/-! Reading comma-separated values. A comma separates two values if it stands
outside both kinds of quotes; the headers map the values of the first line to
their columns. -/

namespace TradingCore.Utilities.CSVReader
open Std

def delimiter : Char := ','
def dQuotesSymbol : Char := '"'
def sQuotesSymbol : Char := '\''

/-- Columns are numbers of 16 bits. -/
abbrev Headers := ExtTreeMap StdString UInt16

structure Value where
  data : StdString := []
deriving DecidableEq, Repr

/-- A row points to the headers of its file, which do not change once there are
rows. -/
structure Row where
  values : List Value := []
  headers : Option Headers := none

namespace Row

def size (row : Row) : Nat := row.values.length

/-- A value made of a part of a line. -/
def emplaceValue (row : Row) (line : StdString) (pos count : Nat) : Row :=
  { row with values := row.values ++ [⟨line.substr pos count⟩] }

/-- The value under a header; nothing stands for an access outside the row. -/
def valueOf (row : Row) (hdr : StdString) : Option Value :=
  match row.headers with
  | none => some {}
  | some headers =>
    match headers[hdr]? with
    | some idx => row.values[idx.toNat]?
    | none => some {}

end Row

structure CSVData where
  headers : Headers := ∅
  rows : List Row := []

/-- The local variables of `parseLine` between two characters. -/
structure Scan where
  sQuotes : Bool := false
  dQuotes : Bool := false
  prev : Nat := 0
  idx : Nat := 0
  parts : Row

def scan (line : StdString) (state : Scan) (ch : Char) : Scan :=
  let next := { state with idx := state.idx + 1 }
  if ch = dQuotesSymbol then { next with dQuotes := !state.dQuotes }
  else if ch = sQuotesSymbol then { next with sQuotes := !state.sQuotes }
  else if ch = delimiter ∧ ¬ state.dQuotes ∧ ¬ state.sQuotes then
    { next with
      parts := state.parts.emplaceValue line state.prev (state.idx - state.prev)
      prev := state.idx + 1 }
  else next

def parseLine (line : StdString) (parts : Row) : Nat × Row :=
  if line.isEmpty then (0, parts)
  else
    let state := line.foldl (scan line) { parts }
    let parts := state.parts.emplaceValue line state.prev (state.idx - state.prev)
    (parts.size, parts)

/-- One header after the other, with the column they are counted to. -/
def addHeader (state : Headers × UInt16) (hdr : Value) : Headers × UInt16 :=
  (state.1.insert hdr.data state.2, state.2 + 1)

def columnsOf (header : Row) : Headers := (header.values.foldl addHeader (∅, 0)).1

def readRows (csvData : CSVData) (lines : List StdString) : CSVData :=
  { csvData with
    rows := csvData.rows ++ lines.map fun line => (parseLine line { headers := some csvData.headers }).2 }

/-- Reads the lines of a file that opens, with a header line unless that is to
be skipped. -/
def readCsv (file : Option (List StdString)) (skipHeader : Bool) : CSVData :=
  match file with
  | none => {}
  | some lines =>
    if skipHeader then readRows {} lines
    else
      match lines with
      | [] => {}
      | line :: rest => readRows { headers := columnsOf (parseLine line {}).2 } rest

end TradingCore.Utilities.CSVReader
