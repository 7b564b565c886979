import AxonVex.Core.ThreadSafeQueue
import AxonVex.Machinery.BoundedFifo

/-!
# Core/RingBuffer — the ring of one producer and one consumer

    write:  cw ← write_index_;  (cw + 1) & mask = read_index_? full;   buffer_[cw] = item;  write_index_ ← …
    read:   cr ← read_index_;   cr = write_index_? empty;              item = buffer_[cr];  read_index_ ← …

Every line is four steps, and the steps of the two threads interleave freely.  `writeMany` and
`readMany` repeat them until one is refused.  In every run the operations, each at one of its steps,
are those of a queue of `capacity() - 1` items (`ringBuffer_fifo`): a `write` that is refused found
the queue full when it loaded `read_index_`, a `read` found it empty when it loaded `write_index_`.
-/

namespace AxonVex

open Machinery

namespace RingBuffer

/-- Where the producer stands: what it has written in this call, the item it is at, and the rest. -/
inductive Writer (R : Type*)
  | out
  /-- about to load `write_index_` -/
  | load (written : List R) (item : R) (rest : List R)
  /-- about to load `read_index_` -/
  | check (written : List R) (item : R) (rest : List R) (current_write : ℕ)
  /-- about to assign the slot -/
  | assign (written : List R) (item : R) (rest : List R) (current_write : ℕ)
  /-- about to store `write_index_` -/
  | advance (written : List R) (item : R) (rest : List R) (current_write : ℕ)
  | returned (written rest : List R)
  deriving DecidableEq, Repr

/-- A call of the consumer. -/
inductive ReadCall
  | read
  | peek
  | readMany (count : ℕ)
  deriving DecidableEq, Repr

/-- Where the consumer stands, and what it has got in this call. -/
inductive Reader (R : Type*)
  | out
  /-- about to load `read_index_` -/
  | load (call : ReadCall) (items : List R)
  /-- about to load `write_index_` -/
  | check (call : ReadCall) (items : List R) (current_read : ℕ)
  /-- about to move the item out of the slot, or to copy it -/
  | take (call : ReadCall) (items : List R) (current_read : ℕ)
  /-- about to store `read_index_` -/
  | advance (call : ReadCall) (items : List R) (item : R) (current_read : ℕ)
  | returned (call : ReadCall) (items : List R)
  deriving DecidableEq, Repr

/-- How many items a call is to get. -/
def ReadCall.wanted : ReadCall → ℕ
  | read => 1
  | peek => 1
  | readMany count => count

/-- The loop of `writeMany`; `write` is the one with one item. -/
def Writer.next {R : Type*} (written : List R) : List R → Writer R
  | [] => .returned written []
  | item :: rest => .load written item rest

/-- The loop of `readMany`; `read` is the one for one item. -/
def Reader.next {R : Type*} (call : ReadCall) (items : List R) : Reader R :=
  if items.length < call.wanted then .load call items else .returned call items

end RingBuffer

/-- The ring, and where its two threads stand. -/
structure RingBuffer (R : Type*) where
  capacity : QueueCapacity
  buffer_ : ℕ → R
  write_index_ : ℕ := 0
  read_index_ : ℕ := 0
  writer : RingBuffer.Writer R := .out
  reader : RingBuffer.Reader R := .out

namespace RingBuffer

variable {R : Type*}

/-- `& capacity_mask_`. -/
def mask (c : QueueCapacity) (i : ℕ) : ℕ := i &&& (c.capacity_ - 1)

/-- `size()`, from the two indices that it has loaded. -/
def size (c : QueueCapacity) (write_idx read_idx : BitVec 64) : ℕ :=
  mask c (write_idx - read_idx).toNat

/-- `available()`, from the size that it has seen. -/
def available (c : QueueCapacity) (size : ℕ) : ℕ := c.capacity_ - size - 1

/-- The next step of the producer. -/
def stepWriter (s : RingBuffer R) : Option (RingBuffer R) :=
  match s.writer with
  | .load written item rest => some { s with writer := .check written item rest s.write_index_ }
  | .check written item rest current_write =>
    some { s with
      writer :=
        if mask s.capacity (current_write + 1) = s.read_index_ then .returned written (item :: rest)
        else .assign written item rest current_write }
  | .assign written item rest current_write =>
    some { s with
      buffer_ := Function.update s.buffer_ current_write item
      writer := .advance written item rest current_write }
  | .advance written item rest current_write =>
    some { s with
      write_index_ := mask s.capacity (current_write + 1)
      writer := .next (written ++ [item]) rest }
  | _ => none

/-- The next step of the consumer; `moved` is what a move leaves of an item. -/
def stepReader (moved : R → R) (s : RingBuffer R) : Option (RingBuffer R) :=
  match s.reader with
  | .load call items => some { s with reader := .check call items s.read_index_ }
  | .check call items current_read =>
    some { s with
      reader :=
        if current_read = s.write_index_ then .returned call items
        else .take call items current_read }
  | .take .peek items current_read =>
    some { s with reader := .returned .peek (items ++ [s.buffer_ current_read]) }
  | .take call items current_read =>
    some { s with
      buffer_ := Function.update s.buffer_ current_read (moved (s.buffer_ current_read))
      reader := .advance call items (s.buffer_ current_read) current_read }
  | .advance call items item current_read =>
    some { s with
      read_index_ := mask s.capacity (current_read + 1)
      reader := .next call (items ++ [item]) }
  | _ => none

/-- A step of a run. -/
inductive Label (R : Type*)
  /-- the producer calls `writeMany`, or `write` with one item -/
  | writeMany (items : List R)
  /-- the consumer makes a call -/
  | read (call : ReadCall)
  | stepWriter
  | stepReader
  | leaveWriter
  | leaveReader
  deriving DecidableEq, Repr

/-- The step with this label. -/
def step (moved : R → R) (s : RingBuffer R) : Label R → Option (RingBuffer R)
  | .writeMany items => match s.writer with
    | .out => some { s with writer := .next [] items }
    | _ => none
  | .read call => match s.reader with
    | .out => some { s with reader := .next call [] }
    | _ => none
  | .stepWriter => s.stepWriter
  | .stepReader => s.stepReader moved
  | .leaveWriter => match s.writer with
    | .returned _ _ => some { s with writer := .out }
    | _ => none
  | .leaveReader => match s.reader with
    | .returned _ _ => some { s with reader := .out }
    | _ => none

/-- Rings of any capacity, from their construction on. -/
def ringBuffer (moved : R → R) : Machine (RingBuffer R) (Label R) where
  init s := s = { capacity := s.capacity, buffer_ := s.buffer_ }
  step := step moved

/-! ## What happens in a run -/

/-- The run so far. -/
structure History (R : Type*) where
  /-- the operations of both threads, each at the step that decides it -/
  ops : List (FifoOp R) := []
  /-- what the producer was called with last -/
  items : List R := []
  /-- its operations in that call -/
  writes : List (FifoOp R) := []
  /-- the operations of the consumer in its last call -/
  reads : List (FifoOp R) := []

/-- The operation that a step of the producer decides. -/
def writes? (s : RingBuffer R) : Option (FifoOp R) :=
  match s.writer with
  | .check _ _ _ current_write =>
    if mask s.capacity (current_write + 1) = s.read_index_ then some .full else none
  | .advance _ item _ _ => some (.push item)
  | _ => none

/-- The operation that a step of the consumer decides. -/
def reads? (s : RingBuffer R) : Option (FifoOp R) :=
  match s.reader with
  | .check _ _ current_read => if current_read = s.write_index_ then some .empty else none
  | .take .peek _ current_read => some (.peek (s.buffer_ current_read))
  | .advance _ _ item _ => some (.pop item)
  | _ => none

/-- What a step adds to the run. -/
def record (s : RingBuffer R) (a : Label R) (_ : RingBuffer R) (h : History R) : History R :=
  match a with
  | .writeMany items => { h with items := items, writes := [] }
  | .read _ => { h with reads := [] }
  | .stepWriter =>
    { h with ops := h.ops ++ s.writes?.toList, writes := h.writes ++ s.writes?.toList }
  | .stepReader =>
    { h with ops := h.ops ++ s.reads?.toList, reads := h.reads ++ s.reads?.toList }
  | _ => h

/-- The ring, with the run so far. -/
def observed (moved : R → R) : Machine (RingBuffer R × History R) (Label R) :=
  (ringBuffer moved).withHistory {} record

/-! ## The invariant of a run -/

theorem mask_eq (c : QueueCapacity) (i : ℕ) : mask c i = i % c.capacity_ := c.and_mask i

/-- The operation with which a call gets an item. -/
def ReadCall.gets : ReadCall → R → FifoOp R
  | peek => .peek
  | _ => .pop

/-- The item at the head of the queue has been moved out of its slot. -/
def Reader.moving : Reader R → Bool
  | advance _ _ _ _ => true
  | _ => false

/-- What the place of the producer says, where the queue is `q`. -/
def WriterFits (s : RingBuffer R) (h : History R) (q : List R) : Writer R → Prop
  | .out => True
  | .load written item rest =>
    h.items = written ++ item :: rest ∧ h.writes = written.map .push
  | .check written item rest current_write =>
    (h.items = written ++ item :: rest ∧ h.writes = written.map .push) ∧
      current_write = s.write_index_
  | .assign written item rest current_write =>
    (h.items = written ++ item :: rest ∧ h.writes = written.map .push) ∧
      current_write = s.write_index_ ∧ q.length < s.capacity.capacity_ - 1
  | .advance written item rest current_write =>
    (h.items = written ++ item :: rest ∧ h.writes = written.map .push) ∧
      current_write = s.write_index_ ∧ q.length < s.capacity.capacity_ - 1 ∧
      s.buffer_ current_write = item
  | .returned written rest =>
    h.items = written ++ rest ∧
      h.writes = written.map .push ++ if rest.isEmpty then [] else [.full]

/-- What the place of the consumer says. -/
def ReaderFits (s : RingBuffer R) (h : History R) (q : List R) : Reader R → Prop
  | .out => True
  | .load call items => items.length < call.wanted ∧ h.reads = items.map call.gets
  | .check call items current_read =>
    (items.length < call.wanted ∧ h.reads = items.map call.gets) ∧ current_read = s.read_index_
  | .take call items current_read =>
    (items.length < call.wanted ∧ h.reads = items.map call.gets) ∧
      current_read = s.read_index_ ∧ q ≠ []
  | .advance call items item current_read =>
    (items.length < call.wanted ∧ h.reads = items.map call.gets) ∧
      current_read = s.read_index_ ∧ call ≠ .peek ∧ q.head? = some item
  | .returned call items => items.length ≤ call.wanted ∧
      h.reads = items.map call.gets ++ if items.length < call.wanted then [.empty] else []

/-- **The ring tells a queue.** -/
structure Told (s : RingBuffer R) (h : History R) (q : List R) : Prop where
  runs : Fifo (s.capacity.capacity_ - 1) h.ops q
  write : s.write_index_ = ((pops h.ops).length + q.length) % s.capacity.capacity_
  read : s.read_index_ = (pops h.ops).length % s.capacity.capacity_
  /-- the items stand in their slots, but for the head once it has been moved out -/
  slots : ∀ (k : ℕ) (x : R), q[k]? = some x → (s.reader.moving = true → k ≠ 0) →
    s.buffer_ (((pops h.ops).length + k) % s.capacity.capacity_) = x
  writer : WriterFits s h q s.writer
  reader : ReaderFits s h q s.reader

variable {s s' : RingBuffer R} {h : History R} {q : List R}

theorem Told.length_lt (ht : Told s h q) : q.length < s.capacity.capacity_ := by
  have hle := ht.runs.length_le
  have hcap := s.capacity.two_le
  omega

/-- The slot that is written next is the one behind the queue. -/
theorem Told.full_iff (ht : Told s h q) :
    mask s.capacity (s.write_index_ + 1) = s.read_index_ ↔
      q.length = s.capacity.capacity_ - 1 := by
  have hlt := ht.length_lt
  have hcap := s.capacity.two_le
  rw [mask_eq, ht.write, ht.read, Nat.mod_add_mod]
  constructor
  · intro hsame
    by_contra hne
    have hzero : q.length + 1 = 0 := by
      refine ring_inj (p := (pops h.ops).length) (n := s.capacity.capacity_) (by omega) (by omega) ?_
      rwa [← Nat.add_assoc, Nat.add_zero]
    omega
  · intro hfull
    have hround : (pops h.ops).length + q.length + 1 =
        (pops h.ops).length + s.capacity.capacity_ := by omega
    rw [hround, Nat.add_mod_right]

/-- Nothing is in the queue where the indices are the same. -/
theorem Told.empty_iff (ht : Told s h q) : s.read_index_ = s.write_index_ ↔ q = [] := by
  have hlt := ht.length_lt
  rw [ht.write, ht.read, ← List.length_eq_zero_iff]
  constructor
  · intro hsame
    exact (ring_inj (p := (pops h.ops).length) (by omega) hlt (by rwa [Nat.add_zero])).symm
  · intro hzero
    rw [hzero, Nat.add_zero]

/-! ## Steps of the producer -/

theorem record_writes {op : FifoOp R} (hop : s.writes? = some op) :
    record s .stepWriter s' h = { h with ops := h.ops ++ [op], writes := h.writes ++ [op] } := by
  simp [record, hop]

theorem record_noWrite (hop : s.writes? = none) : record s .stepWriter s' h = h := by
  simp [record, hop]

/-- The producer goes on, and decides nothing. -/
theorem Told.goWriter (ht : Told s h q) {writer : Writer R} (hw : WriterFits s h q writer) :
    Told { s with writer := writer } h q :=
  { ht with
    writer := by cases writer <;> exact hw
    reader := by
      have hr := ht.reader
      revert hr
      change _ → ReaderFits { s with writer := writer } h q s.reader
      cases s.reader <;> exact id }

/-- Where the loop of the producer goes on after what it has written. -/
theorem writerFits_next {written rest : List R} (hitems : h.items = written ++ rest)
    (hwrites : h.writes = written.map .push) : WriterFits s h q (.next written rest) := by
  cases rest with
  | nil => exact ⟨hitems, by rw [hwrites]; exact (List.append_nil _).symm⟩
  | cons item rest => exact ⟨hitems, hwrites⟩

/-- A refused `write`: the queue is full. -/
theorem Told.refuse (ht : Told s h q) {written rest : List R} {item : R}
    (hitems : h.items = written ++ item :: rest) (hwrites : h.writes = written.map .push)
    (hfull : mask s.capacity (s.write_index_ + 1) = s.read_index_) :
    Told { s with writer := .returned written (item :: rest) }
      { h with ops := h.ops ++ [.full], writes := h.writes ++ [.full] } q := by
  have hpops : pops (h.ops ++ [.full]) = pops h.ops := by simp [FifoOp.popped?]
  exact {
    runs := ht.runs.snoc (.full (ht.full_iff.mp hfull))
    write := hpops ▸ ht.write
    read := hpops ▸ ht.read
    slots := hpops ▸ ht.slots
    writer := ⟨hitems, by rw [hwrites]; rfl⟩
    reader := by
      have hr := ht.reader
      revert hr
      change _ → ReaderFits _ _ q s.reader
      cases s.reader <;> exact id }

/-- The slot behind the queue is assigned: no item that is in the queue stands there. -/
theorem Told.assign (ht : Told s h q) {written rest : List R} {item : R}
    (hitems : h.items = written ++ item :: rest) (hwrites : h.writes = written.map .push)
    (hroom : q.length < s.capacity.capacity_ - 1) :
    Told { s with
      buffer_ := Function.update s.buffer_ s.write_index_ item
      writer := .advance written item rest s.write_index_ } h q where
  runs := ht.runs
  write := ht.write
  read := ht.read
  slots k x hx hk := by
    have hlt : k < q.length := (List.getElem?_eq_some_iff.mp hx).1
    have hne : ((pops h.ops).length + k) % s.capacity.capacity_ ≠ s.write_index_ := by
      intro hsame
      rw [ht.write] at hsame
      have heq := ring_inj (by omega) (by omega) hsame
      omega
    change Function.update s.buffer_ s.write_index_ item _ = x
    rw [Function.update_of_ne hne]
    exact ht.slots k x hx hk
  writer := ⟨⟨hitems, hwrites⟩, rfl, hroom, Function.update_self ..⟩
  reader := by
    have hr := ht.reader
    revert hr
    change _ → ReaderFits _ _ q s.reader
    cases s.reader <;> exact id

/-- `write_index_` is stored: the item is in the queue. -/
theorem Told.push (ht : Told s h q) {written rest : List R} {item : R}
    (hitems : h.items = written ++ item :: rest) (hwrites : h.writes = written.map .push)
    (hroom : q.length < s.capacity.capacity_ - 1) (hslot : s.buffer_ s.write_index_ = item) :
    Told { s with
        write_index_ := mask s.capacity (s.write_index_ + 1)
        writer := .next (written ++ [item]) rest }
      { h with ops := h.ops ++ [.push item], writes := h.writes ++ [.push item] }
      (q ++ [item]) := by
  have hpops : pops (h.ops ++ [.push item]) = pops h.ops := by simp [FifoOp.popped?]
  exact {
    runs := ht.runs.snoc (.push item hroom)
    write := by
      change mask s.capacity (s.write_index_ + 1) = _
      rw [hpops, mask_eq, ht.write, Nat.mod_add_mod, List.length_append, List.length_singleton,
        Nat.add_assoc]
    read := hpops ▸ ht.read
    slots := fun k x hx hk => by
      change s.buffer_ (((pops (h.ops ++ [.push item])).length + k) % s.capacity.capacity_) = x
      rw [hpops]
      by_cases hlt : k < q.length
      · rw [List.getElem?_append_left hlt] at hx
        exact ht.slots k x hx hk
      · have hle : k < (q ++ [item]).length := (List.getElem?_eq_some_iff.mp hx).1
        rw [List.length_append, List.length_singleton] at hle
        obtain rfl : k = q.length := by omega
        rw [List.getElem?_concat_length] at hx
        rw [← ht.write, hslot]
        exact Option.some.inj hx
    writer := writerFits_next (by rw [hitems, List.append_assoc]; rfl)
      (by rw [hwrites, List.map_append]; rfl)
    reader := by
      have hr := ht.reader
      revert hr
      change _ → ReaderFits _ _ (q ++ [item]) s.reader
      cases s.reader with
      | take call items current_read => exact fun hr => ⟨hr.1, hr.2.1, by simp⟩
      | advance call items x current_read =>
        exact fun hr => ⟨hr.1, hr.2.1, hr.2.2.1, by simp [List.head?_append, hr.2.2.2]⟩
      | _ => exact id }

/-- **Every step of the producer** is one of the queue, or none. -/
theorem Told.stepWriter (ht : Told s h q) (hstep : s.stepWriter = some s') :
    ∃ q', Told s' (record s .stepWriter s' h) q' := by
  have hw := ht.writer
  rw [RingBuffer.stepWriter] at hstep
  split at hstep
  · next written item rest hpc =>
    obtain ⟨⟩ := hstep
    rw [hpc] at hw
    rw [record_noWrite (by rw [writes?, hpc])]
    exact ⟨q, ht.goWriter ⟨hw, rfl⟩⟩
  · next written item rest current_write hpc =>
    obtain ⟨⟩ := hstep
    rw [hpc] at hw
    obtain ⟨⟨hitems, hwrites⟩, rfl⟩ := hw
    by_cases hfull : mask s.capacity (s.write_index_ + 1) = s.read_index_
    · rw [if_pos hfull, record_writes (by rw [writes?, hpc]; exact if_pos hfull)]
      exact ⟨q, ht.refuse hitems hwrites hfull⟩
    · rw [if_neg hfull, record_noWrite (by rw [writes?, hpc]; exact if_neg hfull)]
      have hle := ht.runs.length_le
      have hne := mt ht.full_iff.mpr hfull
      exact ⟨q, ht.goWriter ⟨⟨hitems, hwrites⟩, rfl, by omega⟩⟩
  · next written item rest current_write hpc =>
    obtain ⟨⟩ := hstep
    rw [hpc] at hw
    obtain ⟨⟨hitems, hwrites⟩, rfl, hroom⟩ := hw
    rw [record_noWrite (by rw [writes?, hpc])]
    exact ⟨q, ht.assign hitems hwrites hroom⟩
  · next written item rest current_write hpc =>
    obtain ⟨⟩ := hstep
    rw [hpc] at hw
    obtain ⟨⟨hitems, hwrites⟩, rfl, hroom, hslot⟩ := hw
    rw [record_writes (by rw [writes?, hpc])]
    exact ⟨q ++ [item], ht.push hitems hwrites hroom hslot⟩
  · cases hstep

/-! ## Steps of the consumer -/

theorem record_reads {op : FifoOp R} (hop : s.reads? = some op) :
    record s .stepReader s' h = { h with ops := h.ops ++ [op], reads := h.reads ++ [op] } := by
  simp [record, hop]

theorem record_noRead (hop : s.reads? = none) : record s .stepReader s' h = h := by
  simp [record, hop]

/-- Where the producer stands says nothing of the consumer's operations. -/
theorem writerFits_of_reader {s' : RingBuffer R} {h' : History R} {q' : List R} {w : Writer R}
    (hw : WriterFits s h q w) (hcap : s'.capacity = s.capacity) (hitems : h'.items = h.items)
    (hwrites : h'.writes = h.writes) (hindex : s'.write_index_ = s.write_index_)
    (hle : q'.length ≤ q.length)
    (hslot : q.length < s.capacity.capacity_ - 1 →
      s'.buffer_ s.write_index_ = s.buffer_ s.write_index_) : WriterFits s' h' q' w := by
  cases w with
  | out => trivial
  | load written item rest => exact ⟨hitems.trans hw.1, hwrites.trans hw.2⟩
  | check written item rest current_write =>
    exact ⟨⟨hitems.trans hw.1.1, hwrites.trans hw.1.2⟩, hw.2.trans hindex.symm⟩
  | assign written item rest current_write =>
    obtain ⟨hcall, hcw, hroom⟩ := hw
    refine ⟨⟨hitems.trans hcall.1, hwrites.trans hcall.2⟩, hcw.trans hindex.symm, ?_⟩
    rw [hcap]
    exact hle.trans_lt hroom
  | advance written item rest current_write =>
    obtain ⟨hcall, rfl, hroom, hitem⟩ := hw
    refine ⟨⟨hitems.trans hcall.1, hwrites.trans hcall.2⟩, hindex.symm, ?_, ?_⟩
    · rw [hcap]
      exact hle.trans_lt hroom
    · rw [hslot hroom, hitem]
  | returned written rest => exact ⟨hitems.trans hw.1, hwrites.trans hw.2⟩

/-- The consumer goes on, and decides nothing. -/
theorem Told.goReader (ht : Told s h q) {reader : Reader R} (hstill : s.reader.moving = false)
    (hr : ReaderFits s h q reader) : Told { s with reader := reader } h q :=
  { ht with
    slots := fun k x hx _ =>
      ht.slots k x hx fun hmoving => absurd (hstill.symm.trans hmoving) (by simp)
    writer := writerFits_of_reader ht.writer rfl rfl rfl rfl le_rfl fun _ => rfl
    reader := by cases reader <;> exact hr }

/-- The slot of the head holds it, until it is moved out. -/
theorem Told.head (ht : Told s h q) (hstill : s.reader.moving = false) (hq : q ≠ []) :
    q.head? = some (s.buffer_ s.read_index_) := by
  cases q with
  | nil => exact absurd rfl hq
  | cons x q =>
    have hslot := ht.slots 0 x rfl fun hmoving => absurd (hstill.symm.trans hmoving) (by simp)
    rw [Nat.add_zero, ← ht.read] at hslot
    rw [hslot]
    rfl

/-- An operation of the consumer that takes nothing out of the queue. -/
theorem Told.look (ht : Told s h q) {call : ReadCall} {items : List R} {op : FifoOp R}
    (hstill : s.reader.moving = false) (hop : op.Allowed (s.capacity.capacity_ - 1) q q)
    (hpop : op.popped? = none)
    (hr : ReaderFits s { h with ops := h.ops ++ [op], reads := h.reads ++ [op] } q
      (.returned call items)) :
    Told { s with reader := .returned call items }
      { h with ops := h.ops ++ [op], reads := h.reads ++ [op] } q := by
  have hpops : pops (h.ops ++ [op]) = pops h.ops := by simp [hpop]
  exact {
    runs := ht.runs.snoc hop
    write := hpops ▸ ht.write
    read := hpops ▸ ht.read
    slots := hpops ▸ fun k x hx _ =>
      ht.slots k x hx fun hmoving => absurd (hstill.symm.trans hmoving) (by simp)
    writer := writerFits_of_reader ht.writer rfl rfl rfl rfl le_rfl fun _ => rfl
    reader := hr }

/-- The head is moved out of its slot. -/
theorem Told.move (ht : Told s h q) (moved : R → R) {call : ReadCall} {items : List R}
    (hstill : s.reader.moving = false)
    (hcall : items.length < call.wanted ∧ h.reads = items.map call.gets) (hpeek : call ≠ .peek)
    (hq : q ≠ []) :
    Told { s with
      buffer_ := Function.update s.buffer_ s.read_index_ (moved (s.buffer_ s.read_index_))
      reader := .advance call items (s.buffer_ s.read_index_) s.read_index_ } h q where
  runs := ht.runs
  write := ht.write
  read := ht.read
  slots k x hx hk := by
    have hlt : k < q.length := (List.getElem?_eq_some_iff.mp hx).1
    have hlen := ht.length_lt
    have hne : ((pops h.ops).length + k) % s.capacity.capacity_ ≠ s.read_index_ := by
      intro hsame
      rw [ht.read] at hsame
      exact hk rfl (ring_inj (hlt.trans hlen) (by omega) (by rwa [Nat.add_zero]))
    change Function.update s.buffer_ s.read_index_ _ _ = x
    rw [Function.update_of_ne hne]
    exact ht.slots k x hx fun hmoving => absurd (hstill.symm.trans hmoving) (by simp)
  writer := by
    refine writerFits_of_reader ht.writer rfl rfl rfl rfl le_rfl fun hroom => ?_
    have hne : s.write_index_ ≠ s.read_index_ := fun hsame => hq (ht.empty_iff.mp hsame.symm)
    exact Function.update_of_ne hne ..
  reader := ⟨hcall, rfl, hpeek, ht.head hstill hq⟩

/-- Where the loop of the consumer goes on after what it has got. -/
theorem readerFits_next {call : ReadCall} {items : List R} (hle : items.length ≤ call.wanted)
    (hreads : h.reads = items.map call.gets) : ReaderFits s h q (.next call items) := by
  rw [Reader.next]
  split_ifs with hmore
  · exact ⟨hmore, hreads⟩
  · refine ⟨hle, ?_⟩
    rw [if_neg hmore, List.append_nil]
    exact hreads

/-- `read_index_` is stored: the head is out of the queue. -/
theorem Told.pop (ht : Told s h q) {call : ReadCall} {items : List R} {item : R}
    (hcall : items.length < call.wanted ∧ h.reads = items.map call.gets) (hpeek : call ≠ .peek)
    (hhead : q.head? = some item) :
    Told { s with
        read_index_ := mask s.capacity (s.read_index_ + 1)
        reader := .next call (items ++ [item]) }
      { h with ops := h.ops ++ [.pop item], reads := h.reads ++ [.pop item] } q.tail := by
  obtain ⟨q, rfl⟩ : ∃ q', q = item :: q' := by
    cases q with
    | nil => cases hhead
    | cons x q => exact ⟨q, by rw [Option.some.inj hhead]⟩
  have hpops : (pops (h.ops ++ [.pop item])).length = (pops h.ops).length + 1 := by
    simp [FifoOp.popped?]
  have hgets : call.gets = (FifoOp.pop : R → FifoOp R) := by
    cases call with
    | peek => exact absurd rfl hpeek
    | _ => rfl
  exact {
    runs := ht.runs.snoc (.pop item)
    write := by
      change s.write_index_ = _
      rw [hpops, ht.write, List.length_cons]
      congr 1
      simp only [List.tail_cons]
      omega
    read := by
      change mask s.capacity (s.read_index_ + 1) = _
      rw [hpops, mask_eq, ht.read, Nat.mod_add_mod]
    slots := fun k x hx _ => by
      have hslot := ht.slots (k + 1) x hx fun _ => Nat.succ_ne_zero k
      change s.buffer_ (((pops (h.ops ++ [.pop item])).length + k) % s.capacity.capacity_) = x
      rw [hpops, Nat.add_assoc, Nat.add_comm 1 k]
      exact hslot
    writer := writerFits_of_reader ht.writer rfl rfl rfl rfl (Nat.le_succ _) fun _ => rfl
    reader := by
      refine readerFits_next ?_ ?_
      · rw [List.length_append, List.length_singleton]
        exact hcall.1
      · change h.reads ++ [.pop item] = _
        rw [hcall.2, List.map_append, hgets]
        rfl }

/-- **Every step of the consumer** is one of the queue, or none. -/
theorem Told.stepReader (ht : Told s h q) {moved : R → R}
    (hstep : s.stepReader moved = some s') :
    ∃ q', Told s' (record s .stepReader s' h) q' := by
  have hr := ht.reader
  rw [RingBuffer.stepReader] at hstep
  split at hstep
  · next call items hpc =>
    obtain ⟨⟩ := hstep
    rw [hpc] at hr
    rw [record_noRead (by rw [reads?, hpc])]
    exact ⟨q, ht.goReader (by rw [hpc]; rfl) ⟨hr, rfl⟩⟩
  · next call items current_read hpc =>
    obtain ⟨⟩ := hstep
    rw [hpc] at hr
    obtain ⟨hcall, rfl⟩ := hr
    have hstill : s.reader.moving = false := by rw [hpc]; rfl
    by_cases hempty : s.read_index_ = s.write_index_
    · rw [if_pos hempty, record_reads (by rw [reads?, hpc]; exact if_pos hempty)]
      obtain rfl := ht.empty_iff.mp hempty
      refine ⟨[], ht.look hstill .empty rfl ⟨hcall.1.le, ?_⟩⟩
      rw [if_pos hcall.1, hcall.2]
    · rw [if_neg hempty, record_noRead (by rw [reads?, hpc]; exact if_neg hempty)]
      exact ⟨q, ht.goReader hstill ⟨hcall, rfl, mt ht.empty_iff.mpr hempty⟩⟩
  · next items current_read hpc =>
    obtain ⟨⟩ := hstep
    rw [hpc] at hr
    obtain ⟨hcall, rfl, hq⟩ := hr
    have hstill : s.reader.moving = false := by rw [hpc]; rfl
    rw [record_reads (by rw [reads?, hpc])]
    obtain ⟨x, q, rfl⟩ := List.exists_cons_of_ne_nil hq
    have hx : x = s.buffer_ s.read_index_ := Option.some.inj (ht.head hstill hq)
    have hnil : items = [] := List.length_eq_zero_iff.mp (Nat.lt_one_iff.mp hcall.1)
    rw [← hx]
    refine ⟨x :: q, ht.look hstill (.peek x) rfl ?_⟩
    subst hnil
    exact ⟨le_rfl, by rw [hcall.2]; rfl⟩
  · next call items current_read hpeek hpc =>
    obtain ⟨⟩ := hstep
    rw [hpc] at hr
    obtain ⟨hcall, rfl, hq⟩ := hr
    have hnone : s.reads? = none := by
      rw [reads?, hpc]
      cases call with
      | peek => exact absurd rfl hpeek
      | _ => rfl
    rw [record_noRead hnone]
    exact ⟨q, ht.move moved (by rw [hpc]; rfl) hcall hpeek hq⟩
  · next call items item current_read hpc =>
    obtain ⟨⟩ := hstep
    rw [hpc] at hr
    obtain ⟨hcall, rfl, hpeek, hhead⟩ := hr
    rw [record_reads (by rw [reads?, hpc])]
    exact ⟨q.tail, ht.pop hcall hpeek hhead⟩
  · cases hstep

/-- **Every step keeps the invariant.** -/
theorem Told.step (ht : Told s h q) {moved : R → R} {a : Label R}
    (hstep : s.step moved a = some s') : ∃ q', Told s' (record s a s' h) q' := by
  cases a with
  | stepWriter => exact ht.stepWriter hstep
  | stepReader => exact ht.stepReader hstep
  | writeMany items =>
    rw [RingBuffer.step] at hstep
    split at hstep
    · obtain ⟨⟩ := hstep
      have hcall : Told s { h with items := items, writes := [] } q :=
        { ht with
          writer := by
            have hout : s.writer = .out := ‹_›
            rw [hout]
            trivial
          reader := by
            have hr := ht.reader
            revert hr
            cases s.reader <;> exact id }
      exact ⟨q, hcall.goWriter (writerFits_next rfl rfl)⟩
    · cases hstep
  | read call =>
    rw [RingBuffer.step] at hstep
    split at hstep
    · next hout =>
      obtain ⟨⟩ := hstep
      have hcall : Told s { h with reads := [] } q :=
        { ht with
          writer := writerFits_of_reader ht.writer rfl rfl rfl rfl le_rfl fun _ => rfl
          reader := by
            rw [hout]
            trivial }
      exact ⟨q, hcall.goReader (by rw [hout]; rfl) (readerFits_next (Nat.zero_le _) rfl)⟩
    · cases hstep
  | leaveWriter =>
    rw [RingBuffer.step] at hstep
    split at hstep
    · obtain ⟨⟩ := hstep
      exact ⟨q, ht.goWriter trivial⟩
    · cases hstep
  | leaveReader =>
    rw [RingBuffer.step] at hstep
    split at hstep
    · next call items hpc =>
      obtain ⟨⟩ := hstep
      exact ⟨q, ht.goReader (by rw [hpc]; rfl) trivial⟩
    · cases hstep

/-- **Every run tells a queue.** -/
theorem told_of_reachable {moved : R → R} {p : RingBuffer R × History R}
    (hp : (observed moved).Reachable p) : ∃ q, Told p.1 p.2 q := by
  refine Machine.ReachableUnder.invariant (I := fun p => ∃ q, Told p.1 p.2 q) ⟨?_, ?_⟩ hp
  · rintro ⟨s, h⟩ ⟨hs, hh⟩
    dsimp only at hs hh ⊢
    rw [hs, hh]
    exact ⟨[], .nil, (Nat.zero_mod _).symm, (Nat.zero_mod _).symm, fun _ _ hx => absurd hx (by simp),
      trivial, trivial⟩
  · rintro ⟨s, h⟩ a ⟨s', h'⟩ ⟨q, ht⟩ - hstep
    obtain ⟨hs', hrecord⟩ := Machine.withHistory_step.mp hstep
    exact hrecord ▸ ht.step hs'

/-! ## What the ring promises -/

/-- `size()` and `available()` add up, whichever indices were loaded. -/
theorem size_add_available (c : QueueCapacity) (write_idx read_idx : BitVec 64) :
    size c write_idx read_idx + available c (size c write_idx read_idx) = c.capacity_ - 1 := by
  have hlt : size c write_idx read_idx < c.capacity_ := by
    rw [size, mask_eq]
    exact Nat.mod_lt _ (by have := c.two_le; omega)
  rw [available]
  omega

/-- What `size()` answers where both indices are loaded at once. -/
theorem Told.size_eq (ht : Told s h q) :
    size s.capacity (BitVec.ofNat 64 s.write_index_) (BitVec.ofNat 64 s.read_index_) =
      q.length := by
  have hlt := ht.length_lt
  have hmost := s.capacity.atMost
  have hdvd : s.capacity.capacity_ ∣ 2 ^ 64 :=
    pow_dvd_pow 2 (Nat.le_of_not_lt fun hlt => by
      have hpow : 2 ^ 65 ≤ 2 ^ s.capacity.exponent := Nat.pow_le_pow_right (by decide) hlt
      omega)
  have hw : s.write_index_ < 2 ^ 64 := by
    have hmod := Nat.mod_lt ((pops h.ops).length + q.length) (by omega : 0 < s.capacity.capacity_)
    rw [← ht.write] at hmod
    exact hmod.trans_le (Nat.le_of_dvd (by decide) hdvd)
  have hr : s.read_index_ < 2 ^ 64 := by
    have hmod := Nat.mod_lt (pops h.ops).length (by omega : 0 < s.capacity.capacity_)
    rw [← ht.read] at hmod
    exact hmod.trans_le (Nat.le_of_dvd (by decide) hdvd)
  rw [size, mask_eq, BitVec.toNat_sub, BitVec.toNat_ofNat, BitVec.toNat_ofNat,
    Nat.mod_eq_of_lt hw, Nat.mod_eq_of_lt hr, Nat.mod_mod_of_dvd _ hdvd]
  -- the indices differ by the length, modulo the capacity
  have hsame : 2 ^ 64 - s.read_index_ + s.write_index_ ≡ q.length [MOD s.capacity.capacity_] := by
    refine Nat.ModEq.add_right_cancel' s.read_index_ ?_
    have hsum : 2 ^ 64 - s.read_index_ + s.write_index_ + s.read_index_ =
        s.write_index_ + 2 ^ 64 := by omega
    rw [hsum, ht.write, ht.read]
    calc (pops h.ops).length.add q.length % s.capacity.capacity_ + 2 ^ 64
      _ ≡ (pops h.ops).length + q.length + 0 [MOD s.capacity.capacity_] :=
        (Nat.mod_modEq _ _).add (Nat.modEq_zero_iff_dvd.mpr hdvd)
      _ = q.length + (pops h.ops).length := by omega
      _ ≡ q.length + (pops h.ops).length % s.capacity.capacity_ [MOD s.capacity.capacity_] :=
        Nat.ModEq.rfl.add (Nat.mod_modEq _ _).symm
  exact Nat.mod_eq_of_modEq hsame hlt

/-- What holds of the ring after the run `h`. -/
structure Refines (s : RingBuffer R) (h : History R) : Prop where
  /-- The operations are those of a queue of `capacity() - 1` items, which holds `size()` items. -/
  queue : ∃ q, Fifo (s.capacity.capacity_ - 1) h.ops q ∧
    size s.capacity (BitVec.ofNat 64 s.write_index_) (BitVec.ofNat 64 s.read_index_) = q.length
  /-- What was read is a prefix of what was written. -/
  order : pops h.ops <+: pushes h.ops
  /-- A call of the producer writes its items in order, until one is refused, and then stops. -/
  writes : ∀ written rest, s.writer = .returned written rest → h.items = written ++ rest ∧
    h.writes = written.map .push ++ if rest.isEmpty then [] else [.full]
  /-- A call of the consumer gets its items in order, until nothing is there. -/
  reads : ∀ call items, s.reader = .returned call items → items.length ≤ call.wanted ∧
    h.reads = items.map call.gets ++ if items.length < call.wanted then [.empty] else []

/-- **The ring is a queue** of `capacity() - 1` items, for every interleaving of its producer and
its consumer; `size()` and `available()` add up to them. -/
theorem ringBuffer_fifo (moved : R → R) (s : RingBuffer R) (h : History R)
    (hrun : (observed moved).Reachable (s, h)) :
    Refines s h ∧ ∀ write_idx read_idx, size s.capacity write_idx read_idx +
      available s.capacity (size s.capacity write_idx read_idx) = s.capacity.capacity_ - 1 := by
  obtain ⟨q, ht⟩ := told_of_reachable hrun
  refine ⟨?_, size_add_available s.capacity⟩
  constructor
  · exact ⟨q, ht.runs, ht.size_eq⟩
  · exact ht.runs.pops_prefix
  · intro written rest hpc
    have hw := ht.writer
    rw [hpc] at hw
    exact hw
  · intro call items hpc
    have hr := ht.reader
    rw [hpc] at hr
    exact hr

/-- Two items are written, and three asked for: the third time nothing is there. -/
def drainedRun : List (Label ℕ) :=
  .read (.readMany 3) :: .stepReader :: .writeMany [7, 8] :: List.replicate 4 .stepWriter ++
    List.replicate 3 .stepReader ++ List.replicate 4 .stepWriter ++ List.replicate 6 .stepReader

theorem ringBuffer_fifo_drained : ∃ p, (observed id).exec
    ({ capacity := ThreadSafeQueue.smallest, buffer_ := fun _ => 0 }, {}) drainedRun = some p ∧
      Refines p.1 p.2 := by
  have hrun : ((observed id).exec
      ({ capacity := ThreadSafeQueue.smallest, buffer_ := fun _ => 0 }, {}) drainedRun).isSome =
        true := by
    decide +kernel
  obtain ⟨p, hexec⟩ := Option.isSome_iff_exists.mp hrun
  have hinit : (observed id).Reachable
    ({ capacity := ThreadSafeQueue.smallest, buffer_ := fun _ => 0 }, {}) := .init ⟨rfl, rfl⟩
  exact ⟨p, hexec, (ringBuffer_fifo id p.1 p.2 (hinit.exec hexec)).1⟩

end RingBuffer

end AxonVex
