import Mathlib.Tactic.Common
import TradingCore.Common.RingBuffer
import TradingCore.Foundation.Rings
import TradingCore.Foundation.Runs

/-! The ring buffer as a bounded queue. Its unread values lie between the two
cursors, the producer only writes to the slot after them, and a stale cursor
only makes the buffer look fuller or emptier than it is. -/

namespace TradingCore.Proofs.RingBufferQueue
open RingBuffer RingBufferThreads Rings

theorem idx_apart (capacity : RingCapacity) : Apart (idx capacity) capacity.size := by
  obtain ⟨exponent, size⟩ := Nat.ne_zero_and_sub_one_eq_zero_iff_isPowerOfTwo.mp capacity.powerOf2
  apply (apart_mod capacity.size).of_eq
  intro first second same
  have masked : first &&& (capacity.size - 1) = second &&& (capacity.size - 1) := congrArg Fin.val same
  rw [size, Nat.and_two_pow_sub_one_eq_mod, Nat.and_two_pow_sub_one_eq_mod] at masked
  rw [size]
  exact masked

variable {capacity : RingCapacity} {T : Type}

/-- What the producer knows in the middle of a call. -/
def Claimed (ring : RingBuffer capacity T) (unread : List T) : ProducerPhase T → Prop
  | .idle => True
  | .refreshing _ seq => seq = ring.writeCursor
  | .writing _ seq | .constructing _ seq => seq = ring.writeCursor ∧ unread.length < capacity.size
  | .publishing value seq =>
    (seq = ring.writeCursor ∧ unread.length < capacity.size) ∧ ring.buffer (idx capacity seq) = some value

/-- The slots hold the unread values, apart from one that is being popped. -/
def Waiting (buffer : Fin capacity.size → Option T) (first : Nat) (unread : List T) : ConsumerPhase T → Prop
  | .idle => Holds buffer (idx capacity) first (unread.map some)
  | .refreshing seq => seq = first ∧ Holds buffer (idx capacity) first (unread.map some)
  | .reading seq => seq = first ∧ unread ≠ [] ∧ Holds buffer (idx capacity) first (unread.map some)
  | .releasing item seq =>
    seq = first ∧ ∃ value rest, unread = value :: rest ∧ item = some value ∧
      Holds buffer (idx capacity) (first + 1) (rest.map some)

structure Represents (threads : RingBufferThreads capacity T) (unread : List T) : Prop where
  cursors : threads.ring.writeCursor = threads.ring.readCursor + unread.length
  room : unread.length ≤ capacity.size
  cachedRead : threads.ring.cachedReadCursor ≤ threads.ring.readCursor
  cachedWrite : threads.ring.cachedWriteCursor ≤ threads.ring.writeCursor
  claimed : Claimed threads.ring unread threads.producer
  waiting : Waiting threads.ring.buffer threads.ring.readCursor unread threads.consumer

variable {buffer : Fin capacity.size → Option T} {first : Nat} {unread : List T} {phase : ConsumerPhase T}

theorem idx_ne (free : unread.length < capacity.size) {seq : Nat} (after : first ≤ seq)
    (before : seq < first + unread.length) : idx capacity seq ≠ idx capacity (first + unread.length) := by
  apply (idx_apart capacity).ne before
  omega

/-- A write to the slot after the unread values. -/
theorem Waiting.store (waiting : Waiting buffer first unread phase) (free : unread.length < capacity.size)
    (content : Option T) :
    Waiting (Function.update buffer (idx capacity (first + unread.length)) content) first unread phase := by
  have outside : ∀ seq, first ≤ seq → seq < first + (unread.map some).length →
      idx capacity seq ≠ idx capacity (first + unread.length) := by
    intro seq after before
    rw [List.length_map] at before
    exact idx_ne free after before
  cases phase with
  | idle => exact Holds.update waiting outside content
  | refreshing seq => exact ⟨waiting.1, waiting.2.update outside content⟩
  | reading seq => exact ⟨waiting.1, waiting.2.1, waiting.2.2.update outside content⟩
  | releasing item seq =>
    obtain ⟨same, value, rest, rfl, taken, holds⟩ := waiting
    refine ⟨same, value, rest, rfl, taken, holds.update ?_ content⟩
    intro seq after before
    apply outside seq (Nat.le_of_succ_le after)
    rw [List.map_cons, List.length_cons]
    omega

/-- The slot after the unread values becomes one of them. -/
theorem Waiting.publish (waiting : Waiting buffer first unread phase) {value : T}
    (held : buffer (idx capacity (first + unread.length)) = some value) :
    Waiting buffer first (unread ++ [value]) phase := by
  have extended : Holds buffer (idx capacity) first (unread.map some) →
      Holds buffer (idx capacity) first ((unread ++ [value]).map some) := by
    intro holds
    rw [List.map_append, holds_append, List.length_map]
    exact ⟨holds, held, trivial⟩
  cases phase with
  | idle => exact extended waiting
  | refreshing seq => exact ⟨waiting.1, extended waiting.2⟩
  | reading seq => exact ⟨waiting.1, List.append_ne_nil_of_left_ne_nil waiting.2.1 _, extended waiting.2.2⟩
  | releasing item seq =>
    obtain ⟨same, head, rest, rfl, taken, holds⟩ := waiting
    refine ⟨same, head, rest ++ [value], List.cons_append, taken, ?_⟩
    rw [List.map_append, holds_append, List.length_map, Nat.add_assoc, Nat.add_comm 1]
    exact ⟨holds, held, trivial⟩

/-- The consumer takes the first unread value out of its slot. -/
theorem Waiting.take (holds : Holds buffer (idx capacity) first (unread.map some)) (some_unread : unread ≠ [])
    (room : unread.length ≤ capacity.size) (content : Option T) :
    Waiting (Function.update buffer (idx capacity first) content) first unread
      (.releasing (buffer (idx capacity first)) first) := by
  cases unread with
  | nil => exact absurd rfl some_unread
  | cons value rest =>
    refine ⟨rfl, value, rest, rfl, holds.1, holds.2.update ?_ content⟩
    intro seq after before
    rw [List.length_map] at before
    rw [List.length_cons] at room
    exact ((idx_apart capacity).ne after (by omega)).symm

variable {ring : RingBuffer capacity T} {producer : ProducerPhase T}

theorem Claimed.store (claimed : Claimed ring unread producer)
    (cursors : ring.writeCursor = ring.readCursor + unread.length) (some_unread : unread ≠ []) (content : Option T) :
    Claimed (ring.store ring.readCursor content) unread producer := by
  cases producer with
  | idle => exact trivial
  | refreshing call seq => exact claimed
  | writing call seq => exact claimed
  | constructing value seq => exact claimed
  | publishing value seq =>
    obtain ⟨⟨same, free⟩, held⟩ := claimed
    refine ⟨⟨same, free⟩, ?_⟩
    have before := List.length_pos_of_ne_nil some_unread
    have elsewhere : idx capacity ring.readCursor ≠ idx capacity seq := by
      rw [same, cursors]
      exact idx_ne free (Nat.le_refl _) (by omega)
    exact (Function.update_of_ne elsewhere.symm _ _).trans held

theorem Claimed.release {value : T} (claimed : Claimed ring (value :: unread) producer) (readCursor : Nat) :
    Claimed { ring with readCursor } unread producer := by
  cases producer with
  | idle => exact trivial
  | refreshing call seq => exact claimed
  | writing call seq => exact ⟨claimed.1, Nat.lt_of_succ_lt claimed.2⟩
  | constructing value seq => exact ⟨claimed.1, Nat.lt_of_succ_lt claimed.2⟩
  | publishing value seq => exact ⟨⟨claimed.1.1, Nat.lt_of_succ_lt claimed.1.2⟩, claimed.2⟩

/-- A queue of at most `size` values: what an answer says of the values before
it and what it leaves. -/
inductive BoundedQueue (size : Nat) : List T → Option (Answer T) → List T → Prop where
  | silent (unread : List T) : BoundedQueue size unread none unread
  | accepted (unread : List T) (value : T) (free : unread.length < size) :
    BoundedQueue size unread (some (.accepted value)) (unread ++ [value])
  | full (unread : List T) (full : unread.length = size) : BoundedQueue size unread (some .full) unread
  | popped (value : T) (rest : List T) : BoundedQueue size (value :: rest) (some (.popped (some value))) rest
  | empty : BoundedQueue size [] (some .empty) []

def acceptedBy : Option (Answer T) → List T
  | some (.accepted value) => [value]
  | _ => []

def poppedBy : Option (Answer T) → List (Option T)
  | some (.popped item) => [item]
  | _ => []

theorem BoundedQueue.flow {size : Nat} {next : List T} {answer : Option (Answer T)}
    (queue : BoundedQueue size unread answer next) :
    unread.map some ++ (acceptedBy answer).map some = poppedBy answer ++ next.map some := by
  cases queue with
  | silent => exact List.append_nil _
  | accepted value free => exact List.map_append.symm
  | full full => exact List.append_nil _
  | popped value rest => exact List.append_nil _
  | empty => rfl

variable {threads : RingBufferThreads capacity T}

/-- The result of a turn is one that the queue allows. -/
def Moves (threads : RingBufferThreads capacity T) (unread : List T)
    (result : RingBufferThreads capacity T × Option (Answer T)) : Prop :=
  ∃ next, BoundedQueue capacity.size unread result.2 next ∧ Represents result.1 next ∧
    result.1.ring.readCursor = threads.ring.readCursor + (poppedBy result.2).length

theorem Represents.silent {after : RingBufferThreads capacity T} (represents : Represents after unread)
    (same : after.ring.readCursor = threads.ring.readCursor) : Moves threads unread (after, none) :=
  ⟨unread, .silent unread, represents, same⟩

/-- The producer writes to its slot in the middle of a call. -/
theorem Represents.stores (represents : Represents threads unread) (free : unread.length < capacity.size)
    (content : Option T) (producer : ProducerPhase T)
    (claimed : Claimed (threads.ring.store threads.ring.writeCursor content) unread producer) :
    Represents { threads with ring := threads.ring.store threads.ring.writeCursor content, producer } unread := by
  refine { represents with claimed, waiting := ?_ }
  rw [RingBuffer.store, represents.cursors]
  exact represents.waiting.store free content

theorem call_moves (represents : Represents threads unread) (call : Call T) :
    Moves threads unread (threads.call call, none) := by
  have cursors := represents.cursors
  have behind := represents.cachedRead
  rw [RingBufferThreads.call]
  split
  next idle =>
    dsimp only
    split
    next => exact Represents.silent { represents with claimed := rfl } rfl
    next cached =>
      rw [looksFull] at cached
      exact Represents.silent { represents with claimed := ⟨rfl, by omega⟩ } rfl
  next => exact represents.silent rfl

theorem produce_moves (represents : Represents threads unread) : Moves threads unread threads.produce := by
  have cursors := represents.cursors
  have claimed := represents.claimed
  rw [produce]
  split
  next => exact represents.silent rfl
  next call seq phase =>
    rw [phase] at claimed
    cases claimed
    dsimp only
    split
    next full =>
      rw [looksFull_refresh] at full
      have room := represents.room
      refine ⟨unread, .full unread (by omega), ?_, rfl⟩
      exact { represents with cachedRead := Nat.le_refl _, claimed := trivial }
    next free =>
      rw [looksFull_refresh] at free
      exact Represents.silent { represents with cachedRead := Nat.le_refl _, claimed := ⟨rfl, by omega⟩ } rfl
  next item seq phase =>
    rw [phase] at claimed
    obtain ⟨rfl, free⟩ := claimed
    have written := represents.stores free (some item) (.publishing item threads.ring.writeCursor)
    exact (written ⟨⟨rfl, free⟩, Function.update_self ..⟩).silent rfl
  next value seq phase =>
    rw [phase] at claimed
    obtain ⟨rfl, free⟩ := claimed
    exact (represents.stores free none (.constructing value _) ⟨rfl, free⟩).silent rfl
  next value seq phase =>
    rw [phase] at claimed
    obtain ⟨rfl, free⟩ := claimed
    have written := represents.stores free (some value) (.publishing value threads.ring.writeCursor)
    exact (written ⟨⟨rfl, free⟩, Function.update_self ..⟩).silent rfl
  next value seq phase =>
    rw [phase] at claimed
    obtain ⟨⟨rfl, free⟩, held⟩ := claimed
    refine ⟨unread ++ [value], .accepted unread value free, ⟨?_, ?_, ?_, ?_, trivial, ?_⟩, rfl⟩
    · rw [List.length_append, ← Nat.add_assoc, ← cursors]
      rfl
    · rw [List.length_append]
      exact free
    · exact represents.cachedRead
    · exact Nat.le_succ_of_le represents.cachedWrite
    · rw [cursors] at held
      exact represents.waiting.publish held

theorem pop_moves (represents : Represents threads unread) : Moves threads unread (threads.pop, none) := by
  have cursors := represents.cursors
  have behind := represents.cachedWrite
  rw [RingBufferThreads.pop]
  split
  next idle =>
    have holds := represents.waiting
    rw [idle] at holds
    dsimp only
    split
    next => exact Represents.silent { represents with waiting := ⟨rfl, holds⟩ } rfl
    next cached =>
      have some_unread : unread ≠ [] := by
        rintro rfl
        rw [looksEmpty] at cached
        rw [List.length_nil] at cursors
        omega
      exact Represents.silent { represents with waiting := ⟨rfl, some_unread, holds⟩ } rfl
  next => exact represents.silent rfl

theorem consume_moves (represents : Represents threads unread) (movedFrom : T) :
    Moves threads unread (threads.consume movedFrom) := by
  have cursors := represents.cursors
  have waiting := represents.waiting
  rw [consume]
  split
  next => exact represents.silent rfl
  next seq phase =>
    rw [phase] at waiting
    obtain ⟨rfl, holds⟩ := waiting
    dsimp only
    split
    next empty =>
      rw [looksEmpty_refresh] at empty
      have none_unread : unread = [] := List.eq_nil_of_length_eq_zero (by omega)
      subst none_unread
      exact ⟨[], .empty, { represents with cachedWrite := Nat.le_refl _, waiting := holds }, rfl⟩
    next more =>
      have some_unread : unread ≠ [] := by
        rintro rfl
        rw [looksEmpty_refresh] at more
        exact more (Nat.le_of_eq cursors)
      apply Represents.silent
      · exact { represents with cachedWrite := Nat.le_refl _, waiting := ⟨rfl, some_unread, holds⟩ }
      · rfl
  next seq phase =>
    rw [phase] at waiting
    obtain ⟨rfl, some_unread, holds⟩ := waiting
    have claimed := represents.claimed.store cursors some_unread (some movedFrom)
    have taken := Waiting.take holds some_unread represents.room (some movedFrom)
    exact Represents.silent { represents with claimed, waiting := taken } rfl
  next item seq phase =>
    rw [phase] at waiting
    obtain ⟨rfl, value, rest, rfl, rfl, holds⟩ := waiting
    have room := represents.room
    rw [List.length_cons] at cursors room
    refine ⟨rest, .popped value rest, ⟨?_, Nat.le_of_succ_le room, ?_, represents.cachedWrite, ?_, holds⟩, rfl⟩
    · rw [cursors, Nat.add_right_comm, Nat.add_assoc]
    · exact Nat.le_succ_of_le represents.cachedRead
    · exact represents.claimed.release (threads.ring.readCursor + 1)

/-- The buffer and its threads refine the bounded queue. -/
theorem turn_moves (represents : Represents threads unread) (turn : Turn T) :
    Moves threads unread (threads.turn turn) := by
  cases turn with
  | call call => exact call_moves represents call
  | produce => exact produce_moves represents
  | pop => exact pop_moves represents
  | consume movedFrom => exact consume_moves represents movedFrom

def acceptedFrom (threads : RingBufferThreads capacity T) (turns : List (Turn T)) : List T :=
  Runs.emitted step (fun threads turn => acceptedBy (threads.answer turn)) threads turns

def poppedFrom (threads : RingBufferThreads capacity T) (turns : List (Turn T)) : List (Option T) :=
  Runs.emitted step (fun threads turn => poppedBy (threads.answer turn)) threads turns

theorem Represents.full (represents : Represents threads unread) {turn : Turn T}
    (refused : threads.answer turn = some .full) : unread.length = capacity.size := by
  obtain ⟨next, queue, _⟩ := turn_moves represents turn
  rw [← answer, refused] at queue
  cases queue with
  | full _ all => exact all

theorem Represents.empty (represents : Represents threads unread) {turn : Turn T}
    (refused : threads.answer turn = some .empty) : unread = [] := by
  obtain ⟨next, queue, _⟩ := turn_moves represents turn
  rw [← answer, refused] at queue
  cases queue with
  | empty => rfl

theorem run_moves (represents : Represents threads unread) (turns : List (Turn T)) :
    ∃ next, unread.map some ++ (acceptedFrom threads turns).map some = poppedFrom threads turns ++ next.map some ∧
      Represents (Runs.after step threads turns) next ∧
      (Runs.after step threads turns).ring.readCursor =
        threads.ring.readCursor + (poppedFrom threads turns).length := by
  induction turns generalizing threads unread with
  | nil => exact ⟨unread, List.append_nil _, represents, rfl⟩
  | cons turn rest ih =>
    obtain ⟨middle, queue, moved, released⟩ := turn_moves represents turn
    obtain ⟨next, flow, final, counted⟩ := ih moved
    refine ⟨next, ?_, final, ?_⟩
    · have first := queue.flow
      rw [acceptedFrom, poppedFrom, Runs.emitted_cons, Runs.emitted_cons, List.map_append, ← List.append_assoc,
        answer, first, List.append_assoc, List.append_assoc]
      exact congrArg _ flow
    · rw [poppedFrom, Runs.emitted_cons, List.length_append, ← Nat.add_assoc, answer, ← released]
      exact counted

def writes (capacity : RingCapacity) : ProducerPhase T → Option (Fin capacity.size)
  | .writing _ seq | .constructing _ seq => some (idx capacity seq)
  | .idle | .refreshing _ _ | .publishing _ _ => none

def reads (capacity : RingCapacity) : ConsumerPhase T → Option (Fin capacity.size)
  | .reading seq => some (idx capacity seq)
  | .idle | .refreshing _ | .releasing _ _ => none

/-- The slot that is about to be written holds no unread value. -/
theorem Represents.writes_outside (represents : Represents threads unread) {slot : Fin capacity.size}
    (writing : writes capacity threads.producer = some slot) {seq : Nat} (after : threads.ring.readCursor ≤ seq)
    (before : seq < threads.ring.writeCursor) : idx capacity seq ≠ slot := by
  have claimed := represents.claimed
  have cursors := represents.cursors
  have outside : unread.length < capacity.size → idx capacity seq ≠ idx capacity threads.ring.writeCursor := by
    intro free
    rw [cursors] at before ⊢
    exact idx_ne free after before
  cases phase : threads.producer with
  | idle =>
    rw [phase] at writing
    cases writing
  | refreshing call seq =>
    rw [phase] at writing
    cases writing
  | writing call seq =>
    rw [phase] at writing claimed
    cases writing
    rw [claimed.1]
    exact outside claimed.2
  | constructing value seq =>
    rw [phase] at writing claimed
    cases writing
    rw [claimed.1]
    exact outside claimed.2
  | publishing value seq =>
    rw [phase] at writing
    cases writing

theorem Represents.reads_unread (represents : Represents threads unread) {slot : Fin capacity.size}
    (reading : reads capacity threads.consumer = some slot) :
    slot = idx capacity threads.ring.readCursor ∧ threads.ring.readCursor < threads.ring.writeCursor := by
  have waiting := represents.waiting
  cases phase : threads.consumer with
  | idle =>
    rw [phase] at reading
    cases reading
  | refreshing seq =>
    rw [phase] at reading
    cases reading
  | reading seq =>
    rw [phase] at reading waiting
    obtain ⟨rfl, some_unread, _⟩ := waiting
    cases reading
    refine ⟨rfl, ?_⟩
    rw [represents.cursors]
    exact Nat.lt_add_of_pos_right (List.length_pos_of_ne_nil some_unread)
  | releasing item seq =>
    rw [phase] at reading
    cases reading

variable [Inhabited T]

theorem initial_represents : Represents (initial : RingBufferThreads capacity T) [] :=
  ⟨rfl, Nat.zero_le _, Nat.le_refl _, Nat.le_refl _, trivial, trivial⟩

def reached (capacity : RingCapacity) (turns : List (Turn T)) : RingBufferThreads capacity T :=
  Runs.after step initial turns

def accepted (capacity : RingCapacity) (turns : List (Turn T)) : List T :=
  acceptedFrom (initial : RingBufferThreads capacity T) turns

def popped (capacity : RingCapacity) (turns : List (Turn T)) : List (Option T) :=
  poppedFrom (initial : RingBufferThreads capacity T) turns

/-- In every interleaving of the two threads: what is popped is the beginning
of what has been accepted, the cursors count both and never part by more than
the capacity, the producer stays away from the slots that the consumer reads or
has yet to read, and a call only fails on a buffer that is full or empty. -/
theorem correct_queue (capacity : RingCapacity) (turns : List (Turn T)) :
    popped capacity turns <+: (accepted capacity turns).map some ∧
    ((reached capacity turns).ring.readCursor = (popped capacity turns).length ∧
      (reached capacity turns).ring.writeCursor = (accepted capacity turns).length) ∧
    ((reached capacity turns).ring.readCursor ≤ (reached capacity turns).ring.writeCursor ∧
      (reached capacity turns).ring.writeCursor ≤ (reached capacity turns).ring.readCursor + capacity.size) ∧
    (∀ slot, writes capacity (reached capacity turns).producer = some slot →
      reads capacity (reached capacity turns).consumer ≠ some slot ∧
      ∀ seq, (reached capacity turns).ring.readCursor ≤ seq → seq < (reached capacity turns).ring.writeCursor →
        idx capacity seq ≠ slot) ∧
    (∀ turn, (reached capacity turns).answer turn = some .full →
      (accepted capacity turns).length = (popped capacity turns).length + capacity.size) ∧
    ∀ turn, (reached capacity turns).answer turn = some .empty →
      (accepted capacity turns).length = (popped capacity turns).length := by
  have start : Represents (initial : RingBufferThreads capacity T) [] := initial_represents
  obtain ⟨unread, flow, represents, counted⟩ := run_moves start turns
  have released : (reached capacity turns).ring.readCursor = (popped capacity turns).length :=
    counted.trans (Nat.zero_add _)
  have published : (reached capacity turns).ring.writeCursor =
      (reached capacity turns).ring.readCursor + unread.length := represents.cursors
  have lengths : (accepted capacity turns).length = (popped capacity turns).length + unread.length := by
    have total := congrArg List.length flow
    rw [List.map_nil, List.nil_append, List.length_map, List.length_append, List.length_map] at total
    exact total
  refine ⟨⟨unread.map some, flow.symm⟩, ⟨released, ?_⟩, ⟨?_, ?_⟩, ?_, ?_, ?_⟩
  · rw [published, released, lengths]
  · rw [published]
    exact Nat.le_add_right _ _
  · rw [published]
    exact Nat.add_le_add_left represents.room _
  · intro slot writing
    refine ⟨?_, fun seq after before => represents.writes_outside writing after before⟩
    intro reading
    obtain ⟨same, below⟩ := represents.reads_unread reading
    exact represents.writes_outside writing (Nat.le_refl _) below same.symm
  · intro turn refused
    rw [lengths, represents.full refused]
  · intro turn refused
    rw [lengths, represents.empty refused]
    rfl

def twoSlots : RingCapacity where
  size := 2
  powerOf2 := by decide
  atLeast2 := Nat.le_refl 2

/-- The producer finds both slots unread while the consumer takes the first
value, and then gets its slot. -/
def wrappingTurns : List (Turn Nat) :=
  [.call (.push 1), .produce, .produce, .call (.emplace 2), .produce, .pop, .produce, .consume 0, .produce,
    .call (.push 3), .consume 0, .produce, .consume 0, .call (.push 3), .produce]

theorem correct_queue_wrapping :
    accepted twoSlots wrappingTurns = [1, 2] ∧ popped twoSlots wrappingTurns = [some 1] ∧
    writes twoSlots (reached twoSlots wrappingTurns).producer = some (idx twoSlots 2) ∧
    idx twoSlots 1 ≠ idx twoSlots 2 ∧
    (accepted twoSlots (wrappingTurns.take 11)).length = (popped twoSlots (wrappingTurns.take 11)).length + 2 := by
  have writing : writes twoSlots (reached twoSlots wrappingTurns).producer = some (idx twoSlots 2) := by decide
  obtain ⟨_, _, _, apart, _, _⟩ := correct_queue twoSlots wrappingTurns
  have unread := (apart _ writing).2 1 (by decide) (by decide)
  obtain ⟨_, _, _, _, refused, _⟩ := correct_queue twoSlots (wrappingTurns.take 11)
  exact ⟨by decide, by decide, writing, unread, refused .produce (by decide)⟩

end TradingCore.Proofs.RingBufferQueue
