import Mathlib.Algebra.Group.Nat.Defs

/-! Strings of the standard library as the utilities use them: the list of
their characters. Sizes and positions are numbers; where they can wrap around,
the functions that compute with them say so. -/

namespace TradingCore.Utilities

def sizeLimit : Nat := 2 ^ 64

/-- Sums and differences of sizes wrap around. -/
def sizeAdd (a b : Nat) : Nat := (a + b) % sizeLimit

def sizeSub (a b : Nat) : Nat := (a + sizeLimit - b) % sizeLimit

def npos : Nat := sizeLimit - 1

abbrev StdString := List Char

namespace StdString

/-- The `count` characters from `pos` on, or as many as there are. The callers
keep the position within the string. -/
def substr (str : StdString) (pos count : Nat) : StdString := (str.drop pos).take count

def findFrom (delimiter : StdString) : StdString → Nat → Option Nat
  | [], pos => if delimiter.isEmpty then some pos else none
  | ch :: rest, pos => if delimiter.isPrefixOf (ch :: rest) then some pos else findFrom delimiter rest (pos + 1)

/-- The first position from `pos` on where the delimiter begins. An empty one
begins everywhere, also behind the last character. -/
def find (str delimiter : StdString) (pos : Nat) : Option Nat :=
  if pos ≤ str.length then findFrom delimiter (str.drop pos) pos else none

def findFirstOf (str delimiter : StdString) (pos : Nat) : Option Nat :=
  ((str.drop pos).findIdx? delimiter.contains).map (pos + ·)

def findFirstNotOf (str : StdString) (symbol : Char) : Nat := (str.findIdx? (· != symbol)).getD npos

/-- The part from a position on; nothing stands for a position outside the string,
here and for `erase`. -/
def partAt (str : StdString) (pos count : Nat) : Option StdString :=
  if pos ≤ str.length then some (str.substr pos count) else none

def erase (str : StdString) (pos count : Nat) : Option StdString :=
  if pos ≤ str.length then some (str.take pos ++ str.drop (pos + count)) else none

/-- The zero behind the last character can be read as well. -/
def charAt (str : StdString) (pos : Nat) : Option Char := if pos = str.length then some '\x00' else str[pos]?

def assign (str : StdString) (pos : Nat) (ch : Char) : Option StdString :=
  if pos < str.length then some (str.set pos ch) else none

def resize (str : StdString) (count : Nat) : StdString :=
  str.take count ++ List.replicate (count - str.length) '\x00'

end StdString

/-- A character as an index. Characters are bytes with a sign, and a negative one
converts to a size beyond the end of any table. -/
def indexOf (ch : Char) : Nat := (Int.bmod ch.toNat 256 % sizeLimit).toNat

/-- White space as the default locale has it. A negative character is outside the
domain, except for the one that is EOF. -/
def isspace (ch : Char) : Option Bool :=
  let value := Int.bmod ch.toNat 256
  if value = -1 ∨ 0 ≤ value then some ([' ', '\t', '\n', '\x0b', '\x0c', '\r'].contains ch) else none

end TradingCore.Utilities
