import Mathlib.Logic.Function.Basic

/-! The lock-free queue of one producer and one consumer. A step is one access
of a thread to memory that the other thread also uses. -/

namespace TradingCore

def isPowOf2 (value : Nat) : Prop := value ≠ 0 ∧ value &&& (value - 1) = 0

instance (value : Nat) : Decidable (isPowOf2 value) :=
  inferInstanceAs (Decidable (value ≠ 0 ∧ value &&& (value - 1) = 0))

/-- A capacity that passes the static assertions. -/
structure RingCapacity where
  size : Nat
  powerOf2 : isPowOf2 size
  atLeast2 : 2 ≤ size

/-- A slot is `none` between the destructor and the constructor that `emplace`
runs in it. -/
structure RingBuffer (capacity : RingCapacity) (T : Type) where
  buffer : Fin capacity.size → Option T
  writeCursor : Nat := 0
  cachedReadCursor : Nat := 0
  readCursor : Nat := 0
  cachedWriteCursor : Nat := 0

namespace RingBuffer

inductive Call (T : Type) where
  | push (item : T)
  /-- with the value that its arguments construct -/
  | emplace (value : T)
deriving DecidableEq, Repr

inductive ProducerPhase (T : Type) where
  | idle
  /-- the buffer looks full by the cached cursor -/
  | refreshing (call : Call T) (seq : Nat)
  | writing (call : Call T) (seq : Nat)
  | constructing (value : T) (seq : Nat)
  | publishing (value : T) (seq : Nat)
deriving DecidableEq, Repr

inductive ConsumerPhase (T : Type) where
  | idle
  /-- the buffer looks empty by the cached cursor -/
  | refreshing (seq : Nat)
  | reading (seq : Nat)
  | releasing (item : Option T) (seq : Nat)
deriving DecidableEq, Repr

/-- What a call that ends returns, with the value it moved. -/
inductive Answer (T : Type) where
  | accepted (value : T)
  | full
  | popped (item : Option T)
  | empty
deriving DecidableEq, Repr

variable {capacity : RingCapacity} {T : Type}

def initial [Inhabited T] : RingBuffer capacity T := { buffer := fun _ => some default }

def kMask (capacity : RingCapacity) : Nat := capacity.size - 1

theorem masked_lt (capacity : RingCapacity) (seq : Nat) : seq &&& kMask capacity < capacity.size := by
  apply Nat.lt_of_le_of_lt Nat.and_le_right
  exact Nat.sub_lt (Nat.lt_of_lt_of_le Nat.two_pos capacity.atLeast2) Nat.one_pos

/-- The index `seq & kMask`. -/
def idx (capacity : RingCapacity) (seq : Nat) : Fin capacity.size := ⟨seq &&& kMask capacity, masked_lt capacity seq⟩

/-- Full when write is exactly N ahead of read. -/
def looksFull (ring : RingBuffer capacity T) (seq : Nat) : Prop := seq - ring.cachedReadCursor ≥ capacity.size

/-- Empty when read has caught up to write. -/
def looksEmpty (ring : RingBuffer capacity T) (seq : Nat) : Prop := seq ≥ ring.cachedWriteCursor

instance (ring : RingBuffer capacity T) (seq : Nat) : Decidable (ring.looksFull seq) :=
  inferInstanceAs (Decidable (_ ≥ _))

instance (ring : RingBuffer capacity T) (seq : Nat) : Decidable (ring.looksEmpty seq) :=
  inferInstanceAs (Decidable (_ ≥ _))

def refreshReadCursor (ring : RingBuffer capacity T) : RingBuffer capacity T :=
  { ring with cachedReadCursor := ring.readCursor }

def refreshWriteCursor (ring : RingBuffer capacity T) : RingBuffer capacity T :=
  { ring with cachedWriteCursor := ring.writeCursor }

theorem looksFull_refresh {ring : RingBuffer capacity T} {seq : Nat} :
    ring.refreshReadCursor.looksFull seq ↔ capacity.size ≤ seq - ring.readCursor := Iff.rfl

theorem looksEmpty_refresh {ring : RingBuffer capacity T} {seq : Nat} :
    ring.refreshWriteCursor.looksEmpty seq ↔ ring.writeCursor ≤ seq := Iff.rfl

def store (ring : RingBuffer capacity T) (seq : Nat) (content : Option T) : RingBuffer capacity T :=
  { ring with buffer := Function.update ring.buffer (idx capacity seq) content }

end RingBuffer

/-- The buffer with its two threads. -/
structure RingBufferThreads (capacity : RingCapacity) (T : Type) where
  ring : RingBuffer capacity T
  producer : RingBuffer.ProducerPhase T := .idle
  consumer : RingBuffer.ConsumerPhase T := .idle

namespace RingBufferThreads
open RingBuffer

inductive Turn (T : Type) where
  | call (call : Call T)
  | produce
  | pop
  /-- with what a move leaves in the slot -/
  | consume (movedFrom : T)
deriving DecidableEq, Repr

variable {capacity : RingCapacity} {T : Type}

def initial [Inhabited T] : RingBufferThreads capacity T := { ring := RingBuffer.initial }

/-- The start of `push` and `emplace`. -/
def call (threads : RingBufferThreads capacity T) (call : Call T) : RingBufferThreads capacity T :=
  match threads.producer with
  | .idle =>
    let seq := threads.ring.writeCursor
    if threads.ring.looksFull seq then { threads with producer := .refreshing call seq }
    else { threads with producer := .writing call seq }
  | _ => threads

def produce (threads : RingBufferThreads capacity T) : RingBufferThreads capacity T × Option (Answer T) :=
  match threads.producer with
  | .idle => (threads, none)
  | .refreshing call seq =>
    let ring := threads.ring.refreshReadCursor
    if ring.looksFull seq then ({ threads with ring, producer := .idle }, some .full)
    else ({ threads with ring, producer := .writing call seq }, none)
  | .writing (.push item) seq =>
    ({ threads with ring := threads.ring.store seq (some item), producer := .publishing item seq }, none)
  | .writing (.emplace value) seq =>
    ({ threads with ring := threads.ring.store seq none, producer := .constructing value seq }, none)
  | .constructing value seq =>
    ({ threads with ring := threads.ring.store seq (some value), producer := .publishing value seq }, none)
  | .publishing value seq =>
    ({ threads with ring := { threads.ring with writeCursor := seq + 1 }, producer := .idle }, some (.accepted value))

/-- The start of `pop`. -/
def pop (threads : RingBufferThreads capacity T) : RingBufferThreads capacity T :=
  match threads.consumer with
  | .idle =>
    let seq := threads.ring.readCursor
    if threads.ring.looksEmpty seq then { threads with consumer := .refreshing seq }
    else { threads with consumer := .reading seq }
  | _ => threads

def consume (threads : RingBufferThreads capacity T) (movedFrom : T) :
    RingBufferThreads capacity T × Option (Answer T) :=
  match threads.consumer with
  | .idle => (threads, none)
  | .refreshing seq =>
    let ring := threads.ring.refreshWriteCursor
    if ring.looksEmpty seq then ({ threads with ring, consumer := .idle }, some .empty)
    else ({ threads with ring, consumer := .reading seq }, none)
  | .reading seq =>
    let item := threads.ring.buffer (idx capacity seq)
    ({ threads with ring := threads.ring.store seq (some movedFrom), consumer := .releasing item seq }, none)
  | .releasing item seq =>
    ({ threads with ring := { threads.ring with readCursor := seq + 1 }, consumer := .idle }, some (.popped item))

def turn (threads : RingBufferThreads capacity T) : Turn T → RingBufferThreads capacity T × Option (Answer T)
  | .call call => (threads.call call, none)
  | .produce => threads.produce
  | .pop => (threads.pop, none)
  | .consume movedFrom => threads.consume movedFrom

def step (threads : RingBufferThreads capacity T) (turn : Turn T) : RingBufferThreads capacity T :=
  (threads.turn turn).1

def answer (threads : RingBufferThreads capacity T) (turn : Turn T) : Option (Answer T) := (threads.turn turn).2

end RingBufferThreads

end TradingCore
