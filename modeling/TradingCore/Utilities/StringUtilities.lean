import TradingCore.Foundation.Loops
import TradingCore.Utilities.StdString

/-! Splitting strings at a delimiter or into chunks, and taking blanks and other
white space off their ends. -/

namespace TradingCore.Utilities.StringUtilities

/-- The local variables of a split: where the next part begins, and the parts
before it. -/
structure Split (α : Type) where
  prev : Nat := 0
  parts : List α := []

/-- One round of the loop, or what follows it. A part is made of a position and a
length. -/
def splitStep {α : Type} (part : Nat → Nat → α) (str delimiter : StdString) (state : Split α) : Split α ⊕ List α :=
  match str.find delimiter state.prev with
  | some pos => .inl ⟨pos + delimiter.length, state.parts ++ [part state.prev (pos - state.prev)]⟩
  | none => .inr (state.parts ++ [part state.prev (str.length - state.prev)])

/-- The most strings that a vector can hold. -/
def maxParts : Nat := (sizeLimit / 2 - 1) / 32

/-- A number of parts that can be reserved; for a larger one `reserve` throws. -/
structure PartsExpected where
  count : Nat
  reservable : count ≤ maxParts
deriving DecidableEq, Repr

def split (steps : Nat) (str : StdString) (_partsExpected : PartsExpected) (delimiter : StdString) :
    Option (List StdString) :=
  Loops.iterate (splitStep str.substr str delimiter) steps {}

structure View where
  pos : Nat
  length : Nat
deriving DecidableEq, Repr

def View.text (str : StdString) (view : View) : StdString := str.substr view.pos view.length

/-- The views that are there before are cleared. -/
def splitTo (steps : Nat) (str : StdString) (_parts : List View) (delimiter : StdString) : Option (List View) :=
  Loops.iterate (splitStep View.mk str delimiter) steps {}

def splitAnyStep (input delimiter : StdString) (state : Split StdString) : Split StdString ⊕ List StdString :=
  if state.prev < input.length then
    match input.findFirstOf delimiter state.prev with
    | some second =>
      let part := input.substr state.prev (second - state.prev)
      .inl ⟨second + 1, if state.prev ≠ second then state.parts ++ [part] else state.parts⟩
    | none => .inr (state.parts ++ [input.drop state.prev])
  else .inr state.parts

def splitAny (steps : Nat) (input delimiter : StdString) : Option (List StdString) :=
  Loops.iterate (splitAnyStep input delimiter) steps {}

def isBlank (ch : Char) : Bool := ch == ' '

/-- Goes forward over blanks. Nothing stands for an access outside the string, here
and in the functions below. -/
def skipFront (blank : Char → Bool) (str : StdString) (start length : Nat) : Option Nat :=
  if length > start then do
    let ch ← str[start]?
    if blank ch then skipFront blank str (start + 1) length else some start
  else some start
termination_by length - start

def stepBack (blank : Char → Bool) (str : StdString) : Nat → Option Nat
  | 0 => some 0
  | last + 1 => do
    let ch ← str[last]?
    if blank ch then stepBack blank str last else some last

/-- Reads and steps back, until there is no blank. The first character is not read. -/
def skipBack (blank : Char → Bool) (str : StdString) : Nat → Option Nat
  | 0 => some 0
  | last + 1 => do
    let ch ← str[last + 1]?
    if blank ch then skipBack blank str last else some (last + 1)

def trim1 (str : StdString) : Option StdString := do
  let beg ← skipFront isBlank str 0 str.length
  let last ← stepBack isBlank str str.length
  str.partAt beg (sizeAdd (sizeSub last beg) 1)

def trim2 (str : StdString) : Option StdString := do
  let str ← str.erase 0 (str.findFirstNotOf ' ')
  let str : StdString := str.reverse
  let str ← str.erase 0 (str.findFirstNotOf ' ')
  some str.reverse

/-- Erases the blanks in front and then, counted from the length before, those at
the end. -/
def eraseEnds (blank : Char → Bool) (str : StdString) : Option StdString := do
  let length := str.length
  let start ← skipFront blank str 0 length
  let str ← str.erase 0 start
  let last ← skipBack blank str (sizeSub (sizeSub length start) 1)
  str.erase (sizeAdd last 1) (sizeSub (sizeSub length start) last)

def trim3 (str : StdString) : Option StdString := eraseEnds isBlank str

def symbols : List Char := [' ', '\t', '\n', '\r', '\n']

def strip (str : StdString) : Option StdString := eraseEnds (fun ch => symbols.any (· == ch)) str

def tbl : List Nat := ['\t', '\n', '\r', ' '].foldl (fun tmp ch => tmp.set (indexOf ch) 1) (List.replicate 256 0)

def isSet (str : StdString) (pos : UInt32) : Option Bool := do
  let ch ← str.charAt pos.toNat
  let element ← tbl[indexOf ch]?
  some (1 == element)

/-- One round of a loop over the characters at one end. It leaves without a
position after an access outside. -/
def skipStep (within : Bool) (str : StdString) (pos next : UInt32) : UInt32 ⊕ Option UInt32 :=
  if within then
    match isSet str pos with
    | some true => .inl next
    | some false => .inr (some pos)
    | none => .inr none
  else .inr (some pos)

def leftStep (str : StdString) (right left : UInt32) : UInt32 ⊕ Option UInt32 :=
  skipStep (left ≤ right) str left (left + 1)

def rightStep (str : StdString) (left right : UInt32) : UInt32 ⊕ Option UInt32 :=
  skipStep (right ≥ left) str right (right - 1)

structure Move where
  str : StdString
  left : UInt32
  idx : UInt32 := 0

def moveStep (right : UInt32) (state : Move) : Move ⊕ Option Move :=
  if state.left ≤ right then
    match state.str.charAt state.left.toNat >>= state.str.assign state.idx.toNat with
    | some str => .inl ⟨str, state.left + 1, state.idx + 1⟩
    | none => .inr none
  else .inr (some state)

def whenInside {α β : Type} (outcome : Option (Option α)) (next : α → Option (Option β)) : Option (Option β) :=
  outcome.bind fun result => result.elim (some none) next

/-- Nothing at all as long as a loop needs more steps. -/
def stripFast (steps : Nat) (str : StdString) : Option (Option StdString) :=
  let right := UInt32.ofNat (sizeSub str.length 1)
  whenInside (Loops.iterate (leftStep str right) steps 0) fun left =>
  whenInside (Loops.iterate (rightStep str left) steps right) fun right =>
  whenInside (Loops.iterate (moveStep right) steps { str, left }) fun moved =>
  some (some (moved.str.resize moved.idx.toNat))

def toExclude : List Nat :=
  ['\t', '\n', '\r', '\n'].foldl (fun tmp ch => tmp.set (indexOf ch) 1) (List.replicate 256 0)

structure Removal where
  str : StdString
  index : Nat := 0

/-- The next character is read from the string that is being written. -/
def removeStep (state : Removal) (pos : Nat) : Option Removal := do
  let ch ← state.str[pos]?
  let element ← toExclude[indexOf ch]?
  if 0 == element then
    let str ← state.str.assign state.index ch
    some ⟨str, state.index + 1⟩
  else some state

def removeCharsFromString (str : StdString) : Option StdString := do
  let removed ← (List.range str.length).foldlM removeStep { str }
  some (removed.str.resize removed.index)

def skipSpaces (str : StdString) : Nat → Option Nat
  | 0 => some 0
  | last + 1 => do
    let ch ← str[last + 1]?
    if ← isspace ch then skipSpaces str last else some (last + 1)

/-- Blanks go in front, all white space goes at the end. -/
def trim (str : StdString) : Option View := do
  let start ← skipFront isBlank str 0 str.length
  let last ← skipSpaces str (sizeSub str.length 1)
  some ⟨start, sizeAdd (sizeSub last start) 1⟩

def findIfNotSpace : StdString → Option Nat
  | [] => some 0
  | ch :: rest => do
    if ← isspace ch then (findIfNotSpace rest).map (· + 1) else some 0

def trimEx (str : StdString) : Option StdString := do
  let start ← findIfNotSpace str
  let back ← findIfNotSpace str.reverse
  let last := str.length - back
  some (if start < last then str.substr start (last - start) else [])

/-- One round of the loop over the positions. A chunk ends in front of the position
that is as far from its beginning as chunks are long. -/
def chunkStep (str : StdString) (chunkSize : Int) (state : Split StdString) (idx : Nat) : Split StdString :=
  if chunkSize = idx - state.prev then ⟨idx, state.parts ++ [str.substr state.prev (idx - state.prev)]⟩ else state

/-- Views and strings alike, a chunk is given by its text. -/
def stringToChunks (str : StdString) (chunkSize : Int) : List StdString :=
  let chunks := (List.range str.length).foldl (chunkStep str chunkSize) {}
  chunks.parts ++ [str.drop chunks.prev]

end TradingCore.Utilities.StringUtilities
