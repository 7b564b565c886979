import AxonVex.Machinery.TicketRing
import Mathlib.Data.List.Nodup

/-!
# Core/ThreadSafeQueue — the bounded queue, for any number of producers and consumers

    enqueue_pos_  ─┐                    slots_[pos & capacity_mask_].sequence
    dequeue_pos_  ─┴─  compare_exchange_weak

`ThreadSafeQueue` is a ring of numbered slots (`Machinery/TicketRing`) whose capacity is a power of
two.  In every run the `k`-th dequeue takes what was enqueued at position `k`: nothing is lost or
taken twice, and the items of one producer come out in the order of its calls (`queue_fifo`).

An `enqueue` is refused when the slot of the *next* position is not free yet.  One consumer that is
slow to release its slot is enough for that: the other slots may all be free
(`refused_by_one_consumer`).
-/

namespace AxonVex

open Machinery

/-- What the constructor makes of a capacity: a power of two, so that `pos & capacity_mask_` is the
remainder. -/
structure QueueCapacity where
  exponent : ℕ
  /-- `MIN_CAPACITY` -/
  atLeast : 16 ≤ 2 ^ exponent
  /-- `MAX_CAPACITY` -/
  atMost : 2 ^ exponent ≤ 1024 * 1024

/-- `capacity_`. -/
def QueueCapacity.capacity_ (c : QueueCapacity) : ℕ := 2 ^ c.exponent

theorem QueueCapacity.two_le (c : QueueCapacity) : 2 ≤ c.capacity_ :=
  le_trans (by decide) c.atLeast

/-- The mask takes the remainder. -/
theorem QueueCapacity.and_mask (c : QueueCapacity) (pos : ℕ) :
    pos &&& (c.capacity_ - 1) = pos % c.capacity_ :=
  Nat.and_two_pow_sub_one_eq_mod pos c.exponent

namespace ThreadSafeQueue

variable {T R : Type*} [DecidableEq T]

/-- The queue of this capacity, from its construction on; `T` are the threads. -/
def queue (T R : Type*) [DecidableEq T] (c : QueueCapacity) :
    Machine (TicketRing T R) (RingLabel T R) where
  init s := s = { capacity := c.capacity_ }
  step := TicketRing.step

/-! ## What happens in a run -/

/-- A thread, a position, and the item there. -/
structure Entry (T R : Type*) where
  thread : T
  pos : ℕ
  item : R
  deriving DecidableEq, Repr

/-- The run so far. -/
structure History (T R : Type*) where
  /-- the items whose `enqueue` returns true, by producer, in the order of the publications -/
  accepted : List (Entry T R) := []
  /-- the items that were taken, by consumer, in the order of the claims -/
  taken : List (Entry T R) := []
  /-- what the last `dequeue` of a thread has claimed -/
  claimed : T → Option (Entry T R) := fun _ => none
  /-- the items that a `dequeue` has returned -/
  returned : List (Entry T R) := []
  /-- during the last `enqueue` of a thread, `capacity()` positions were occupied -/
  wasFull : T → Bool := fun _ => false
  /-- during it, the slot of the next position was occupied -/
  wasBlocked : T → Bool := fun _ => false

/-- All slots are occupied. -/
def isFull (s : TicketRing T R) : Bool :=
  (List.range s.enqueuePos).countP (fun pos => decide (s.Occupied pos)) == s.capacity

/-- The slot of the next position is occupied, from one round before. -/
def isBlocked (s : TicketRing T R) : Bool :=
  decide (s.capacity ≤ s.enqueuePos ∧ s.Occupied (s.enqueuePos - s.capacity))

/-- The thread begins an `enqueue`. -/
def begins (t : T) : RingLabel T R → Bool
  | .enqueue u _ => u == t
  | _ => false

/-- The entry that a step accepts. -/
def accepts (s : TicketRing T R) : RingLabel T R → Option (Entry T R)
  | .step t _ => match s.pcs t with
    | .publish item pos => some ⟨t, pos, item⟩
    | _ => none
  | _ => none

/-- The entry that a step takes: what then stands in the slot. -/
def takes (s s' : TicketRing T R) : RingLabel T R → Option (Entry T R)
  | .step t _ => match s'.pcs t with
    | .read pos => (s.storage (s.index pos)).map fun item => ⟨t, pos, item⟩
    | _ => none
  | _ => none

/-- The entry that a thread returns with. -/
def returns (s : TicketRing T R) (h : History T R) : RingLabel T R → Option (Entry T R)
  | .leave t => match s.pcs t with
    | .dequeued (some _) => h.claimed t
    | _ => none
  | _ => none

/-- What the last `dequeue` of the threads has claimed, after a step. -/
def claims (s s' : TicketRing T R) (h : History T R) (a : RingLabel T R) : T → Option (Entry T R) :=
  match a with
  | .dequeue t => Function.update h.claimed t none
  | _ => match takes s s' a with
    | some x => Function.update h.claimed x.thread (some x)
    | none => h.claimed

/-- What a step adds to the run. -/
def record (s : TicketRing T R) (a : RingLabel T R) (s' : TicketRing T R) (h : History T R) :
    History T R where
  accepted := h.accepted ++ (accepts s a).toList
  taken := h.taken ++ (takes s s' a).toList
  claimed := claims s s' h a
  returned := h.returned ++ (returns s h a).toList
  wasFull t := (!begins t a && h.wasFull t) || isFull s'
  wasBlocked t := (!begins t a && h.wasBlocked t) || isBlocked s'

/-- The queue, with the run so far. -/
def observed (T R : Type*) [DecidableEq T] (c : QueueCapacity) :
    Machine (TicketRing T R × History T R) (RingLabel T R) :=
  (queue T R c).withHistory {} record

/-! ## The invariant of a run -/

/-- What the place of the thread `t` says of what it has claimed. -/
def ClaimFits (s : TicketRing T R) (h : History T R) (t : T) : RingPc R → Prop
  | .dequeue => h.claimed t = none
  | .inspect _ => h.claimed t = none
  | .take _ => h.claimed t = none
  | .read pos => ∃ item, s.log[pos]? = some item ∧ h.claimed t = some ⟨t, pos, item⟩
  | .release item pos => h.claimed t = some ⟨t, pos, item⟩
  | .dequeued none => h.claimed t = none
  | .dequeued (some item) => ∃ pos, h.claimed t = some ⟨t, pos, item⟩
  | .enqueued _ false => h.wasBlocked t = true
  | _ => True

/-- The thread has taken an item, and not returned yet. -/
def Holding : RingPc R → Bool
  | .read _ => true
  | .release _ _ => true
  | .dequeued (some _) => true
  | _ => false

/-- **The invariant of a run.** -/
structure Inv (s : TicketRing T R) (h : History T R) : Prop where
  sound : s.Sound
  /-- what was accepted has been published at its position -/
  accepted : ∀ x ∈ h.accepted, s.log[x.pos]? = some x.item ∧ ∀ t, (s.pcs t).fills? ≠ some x.pos
  distinct : (h.accepted.map Entry.pos).Nodup
  order : h.accepted.Pairwise fun x y => x.thread = y.thread → x.pos < y.pos
  /-- what a producer is about to publish comes behind what it has published -/
  later : ∀ t pos, (s.pcs t).fills? = some pos → ∀ x ∈ h.accepted, x.thread = t → x.pos < pos
  positions : h.taken.map Entry.pos = List.range s.dequeuePos
  taken : ∀ y ∈ h.taken, s.log[y.pos]? = some y.item
  claimed : ∀ t y, h.claimed t = some y → y.thread = t ∧ y ∈ h.taken
  fits : ∀ t, ClaimFits s h t (s.pcs t)
  returned : ∀ y ∈ h.returned, y ∈ h.taken
  once : (h.returned.map Entry.pos).Nodup
  /-- what was taken and not returned is held by its thread -/
  held : ∀ y ∈ h.taken, y ∉ h.returned ↔ h.claimed y.thread = some y ∧
    Holding (s.pcs y.thread) = true
  blocked : isBlocked s = true → ∀ t, h.wasBlocked t = true

variable {s s' : TicketRing T R} {h : History T R} {t : T} {pc : RingPc R}

omit [DecidableEq T] in
/-- Only a position that was given can be found in the log. -/
theorem lt_of_log (hs : s.Sound) {pos : ℕ} {item : R} (hlog : s.log[pos]? = some item) :
    pos < s.enqueuePos :=
  hs.length ▸ (List.getElem?_eq_some_iff.mp hlog).1

/-- What a step of the thread `t` leaves as it was: all but its own place, and what only grows. -/
structure Grows (s s' : TicketRing T R) (t : T) (pc : RingPc R) : Prop where
  pcs : s'.pcs = Function.update s.pcs t pc
  sound : s'.Sound
  log : ∀ (p : ℕ) (item : R), s.log[p]? = some item → s'.log[p]? = some item
  /-- a ticket that the thread fills is its own, or new -/
  fills : ∀ p, pc.fills? = some p → (s.pcs t).fills? = some p ∨ p = s.enqueuePos

theorem Grows.holding (hg : Grows s s' t pc) (hpc : Holding pc = Holding (s.pcs t)) (u : T) :
    Holding (s'.pcs u) = Holding (s.pcs u) := by
  rw [hg.pcs]
  by_cases hut : u = t
  · subst hut
    rw [Function.update_self, hpc]
  · rw [Function.update_of_ne hut]

omit [DecidableEq T] in
/-- The position that is taken next has not been taken. -/
theorem Inv.fresh (hs : Inv s h) {y : Entry T R} (hy : y ∈ h.taken) : y.pos ≠ s.dequeuePos := by
  have hmem : y.pos ∈ List.range s.dequeuePos := hs.positions ▸ List.mem_map_of_mem hy
  exact (List.mem_range.mp hmem).ne

/-- One thread takes a position. -/
theorem Inv.unique (hs : Inv s h) {x y : Entry T R} (hx : x ∈ h.taken) (hy : y ∈ h.taken)
    (hpos : x.pos = y.pos) : x = y := by
  have hnodup : (h.taken.map Entry.pos).Nodup := hs.positions ▸ List.nodup_range
  exact List.inj_on_of_nodup_map hnodup hx hy hpos

theorem fits_of_ne (hs : Inv s h) (hg : Grows s s' t pc) {h' : History T R} {u : T} (hut : u ≠ t)
    (hclaimed : h'.claimed u = h.claimed u)
    (hblocked : h.wasBlocked u = true → h'.wasBlocked u = true) :
    ClaimFits s' h' u (s'.pcs u) := by
  have hfits := hs.fits u
  rw [hg.pcs, Function.update_of_ne hut]
  revert hfits
  generalize s.pcs u = pc
  intro hfits
  cases pc with
  | dequeue => exact hclaimed.trans hfits
  | inspect pos => exact hclaimed.trans hfits
  | take pos => exact hclaimed.trans hfits
  | read pos =>
    obtain ⟨item, hlog, hclaim⟩ := hfits
    exact ⟨item, hg.log pos item hlog, hclaimed.trans hclaim⟩
  | release item pos => exact hclaimed.trans hfits
  | dequeued item =>
    cases item with
    | none => exact hclaimed.trans hfits
    | some item =>
      obtain ⟨pos, hclaim⟩ := hfits
      exact ⟨pos, hclaimed.trans hclaim⟩
  | enqueued item ok =>
    cases ok with
    | false => exact hblocked hfits
    | true => trivial
  | _ => trivial

/-- Nobody begins to fill what was accepted. -/
theorem accepted_step (hs : Inv s h) (hg : Grows s s' t pc) :
    ∀ x ∈ h.accepted, s'.log[x.pos]? = some x.item ∧ ∀ u, (s'.pcs u).fills? ≠ some x.pos := by
  intro x hx
  obtain ⟨hlog, hnone⟩ := hs.accepted x hx
  refine ⟨hg.log _ _ hlog, fun u hu => ?_⟩
  rw [hg.pcs] at hu
  by_cases hut : u = t
  · subst hut
    rw [Function.update_self] at hu
    rcases hg.fills _ hu with hold | hnew
    · exact hnone u hold
    · exact absurd (lt_of_log hs.sound hlog) (hnew ▸ Nat.lt_irrefl _)
  · rw [Function.update_of_ne hut] at hu
    exact hnone u hu

/-- What a producer fills comes behind what it has published. -/
theorem later_step (hs : Inv s h) (hg : Grows s s' t pc) :
    ∀ u pos, (s'.pcs u).fills? = some pos → ∀ x ∈ h.accepted, x.thread = u → x.pos < pos := by
  intro u pos hu x hx hxu
  rw [hg.pcs] at hu
  by_cases hut : u = t
  · subst hut
    rw [Function.update_self] at hu
    rcases hg.fills _ hu with hold | rfl
    · exact hs.later u pos hold x hx hxu
    · exact lt_of_log hs.sound (hs.accepted x hx).1
  · rw [Function.update_of_ne hut] at hu
    exact hs.later u pos hu x hx hxu

/-- A step that accepts nothing and takes nothing. -/
theorem Inv.quiet (hs : Inv s h) (hg : Grows s s' t pc) (hpos : s'.dequeuePos = s.dequeuePos)
    {h' : History T R} (haccepted : h'.accepted = h.accepted) (htaken : h'.taken = h.taken)
    (hreturned : h'.returned = h.returned) (hholding : Holding pc = Holding (s.pcs t))
    (hclaimed : ∀ u, h'.claimed u = h.claimed u ∨
      u = t ∧ h'.claimed u = none ∧ Holding (s.pcs t) = false)
    (hblocked : ∀ u, u ≠ t → h.wasBlocked u = true → h'.wasBlocked u = true)
    (hnow : isBlocked s' = true → ∀ u, h'.wasBlocked u = true)
    (hpc : ClaimFits s' h' t pc) : Inv s' h' where
  sound := hg.sound
  accepted := haccepted ▸ accepted_step hs hg
  distinct := haccepted ▸ hs.distinct
  order := haccepted ▸ hs.order
  later := haccepted ▸ later_step hs hg
  positions := by rw [htaken, hpos, hs.positions]
  taken y hy := hg.log _ _ (hs.taken y (htaken ▸ hy))
  claimed u y hy := by
    rcases hclaimed u with hsame | ⟨-, hnone, -⟩
    · rw [htaken]
      exact hs.claimed u y (hsame ▸ hy)
    · rw [hnone] at hy
      cases hy
  returned y hy := by
    rw [htaken]
    exact hs.returned y (hreturned ▸ hy)
  once := hreturned ▸ hs.once
  held y hy := by
    rw [htaken] at hy
    rw [hreturned, hs.held y hy, hg.holding hholding]
    rcases hclaimed y.thread with hsame | ⟨hthread, hnone, hfree⟩
    · rw [hsame]
    · rw [hthread, hfree]
      simp
  fits u := by
    by_cases hut : u = t
    · subst hut
      rw [hg.pcs, Function.update_self]
      exact hpc
    · exact fits_of_ne hs hg hut ((hclaimed u).resolve_right fun hu => hut hu.1) (hblocked u hut)
  blocked := hnow

/-- An item is published, and its `enqueue` accepted. -/
theorem Inv.accept (hs : Inv s h) {item : R} {pos : ℕ} (hpc : s.pcs t = .publish item pos)
    (hg : Grows s s' t (.enqueued item true)) (hpos : s'.dequeuePos = s.dequeuePos)
    {h' : History T R} (haccepted : h'.accepted = h.accepted ++ [⟨t, pos, item⟩])
    (htaken : h'.taken = h.taken) (hclaimed : h'.claimed = h.claimed)
    (hreturned : h'.returned = h.returned)
    (hblocked : ∀ u, h.wasBlocked u = true → h'.wasBlocked u = true)
    (hnow : isBlocked s' = true → ∀ u, h'.wasBlocked u = true)
    (hlog : s.log[pos]? = some item) (hfill : ∀ u, u ≠ t → (s.pcs u).fills? ≠ some pos) :
    Inv s' h' where
  sound := hg.sound
  accepted x hx := by
    rw [haccepted] at hx
    rcases List.mem_append.mp hx with hx | hx
    · exact accepted_step hs hg x hx
    · obtain rfl := List.mem_singleton.mp hx
      refine ⟨hg.log _ _ hlog, fun u hu => ?_⟩
      rw [hg.pcs] at hu
      by_cases hut : u = t
      · subst hut
        rw [Function.update_self] at hu
        cases hu
      · rw [Function.update_of_ne hut] at hu
        exact hfill u hut hu
  distinct := by
    rw [haccepted, List.map_append, List.map_singleton, List.nodup_append]
    refine ⟨hs.distinct, List.nodup_singleton _, ?_⟩
    intro p hp q hq hpq
    obtain ⟨x, hx, rfl⟩ := List.mem_map.mp hp
    rw [List.mem_singleton] at hq
    have hself : (s.pcs t).fills? = some x.pos := by rw [hpc, hpq, hq]; rfl
    exact (hs.accepted x hx).2 t hself
  order := by
    rw [haccepted, List.pairwise_append]
    refine ⟨hs.order, List.pairwise_singleton .., fun x hx y hy hxy => ?_⟩
    obtain rfl := List.mem_singleton.mp hy
    exact hs.later t pos (by rw [hpc]; rfl) x hx hxy
  later u p hu x hx hxu := by
    rw [haccepted] at hx
    rcases List.mem_append.mp hx with hx | hx
    · exact later_step hs hg u p hu x hx hxu
    · obtain rfl := List.mem_singleton.mp hx
      obtain rfl : t = u := hxu
      rw [hg.pcs, Function.update_self] at hu
      cases hu
  positions := by rw [htaken, hpos, hs.positions]
  taken y hy := hg.log _ _ (hs.taken y (htaken ▸ hy))
  claimed u y hy := by
    rw [htaken]
    exact hs.claimed u y (hclaimed ▸ hy)
  returned y hy := by
    rw [htaken]
    exact hs.returned y (hreturned ▸ hy)
  once := hreturned ▸ hs.once
  held y hy := by
    rw [htaken] at hy
    have hholding : Holding (.enqueued item true) = Holding (s.pcs t) := by rw [hpc]; rfl
    rw [hreturned, hclaimed, hs.held y hy, hg.holding hholding]
  fits u := by
    by_cases hut : u = t
    · subst hut
      rw [hg.pcs, Function.update_self]
      trivial
    · exact fits_of_ne hs hg hut (by rw [hclaimed]) (hblocked u)
  blocked := hnow

/-- The next item is taken. -/
theorem Inv.take (hs : Inv s h) {item : R} {pos : ℕ} (hg : Grows s s' t (.read pos))
    (hpos : s.dequeuePos = pos) (hpos' : s'.dequeuePos = pos + 1) {h' : History T R}
    (haccepted : h'.accepted = h.accepted) (htaken : h'.taken = h.taken ++ [⟨t, pos, item⟩])
    (hclaimed : h'.claimed = Function.update h.claimed t (some ⟨t, pos, item⟩))
    (hreturned : h'.returned = h.returned) (hfree : Holding (s.pcs t) = false)
    (hblocked : ∀ u, h.wasBlocked u = true → h'.wasBlocked u = true)
    (hnow : isBlocked s' = true → ∀ u, h'.wasBlocked u = true)
    (hlog : s'.log[pos]? = some item) : Inv s' h' where
  sound := hg.sound
  accepted := haccepted ▸ accepted_step hs hg
  distinct := haccepted ▸ hs.distinct
  order := haccepted ▸ hs.order
  later := haccepted ▸ later_step hs hg
  positions := by
    rw [htaken, List.map_append, hs.positions, hpos', List.range_succ, hpos]
    rfl
  taken y hy := by
    rw [htaken] at hy
    rcases List.mem_append.mp hy with hy | hy
    · exact hg.log _ _ (hs.taken y hy)
    · obtain rfl := List.mem_singleton.mp hy
      exact hlog
  claimed u y hy := by
    rw [htaken]
    rw [hclaimed] at hy
    by_cases hut : u = t
    · subst hut
      rw [Function.update_self] at hy
      obtain ⟨⟩ := hy
      exact ⟨rfl, List.mem_append_right _ (List.mem_singleton_self _)⟩
    · rw [Function.update_of_ne hut] at hy
      obtain ⟨hthread, hmem⟩ := hs.claimed u y hy
      exact ⟨hthread, List.mem_append_left _ hmem⟩
  returned y hy := by
    rw [htaken]
    exact List.mem_append_left _ (hs.returned y (hreturned ▸ hy))
  once := hreturned ▸ hs.once
  held y hy := by
    rw [hreturned, hclaimed, hg.pcs]
    rw [htaken] at hy
    rcases List.mem_append.mp hy with hy | hy
    · by_cases hthread : y.thread = t
      · -- an item that the thread took before was returned
        have hback : y ∈ h.returned := by
          by_contra hnot
          have hhold := ((hs.held y hy).mp hnot).2
          rw [hthread, hfree] at hhold
          cases hhold
        have hne : (⟨t, pos, item⟩ : Entry T R) ≠ y := fun heq => hs.fresh hy (heq ▸ hpos.symm)
        simp [hback, hthread, hne]
      · rw [Function.update_of_ne hthread, Function.update_of_ne hthread]
        exact hs.held y hy
    · obtain rfl := List.mem_singleton.mp hy
      rw [Function.update_self, Function.update_self]
      exact ⟨fun _ => ⟨rfl, rfl⟩, fun _ hback => hs.fresh (hs.returned _ hback) hpos.symm⟩
  fits u := by
    by_cases hut : u = t
    · subst hut
      rw [hg.pcs, Function.update_self]
      exact ⟨item, hlog, by rw [hclaimed, Function.update_self]⟩
    · exact fits_of_ne hs hg hut (by rw [hclaimed, Function.update_of_ne hut]) (hblocked u)
  blocked := hnow

/-- What was blocked stays so, until the next call. -/
theorem wasBlocked_record {a : RingLabel T R} {u : T} (ha : begins u a = false)
    (hu : h.wasBlocked u = true) : (record s a s' h).wasBlocked u = true := by
  simp [record, ha, hu]

theorem wasBlocked_now {a : RingLabel T R} (hnow : isBlocked s' = true) (u : T) :
    (record s a s' h).wasBlocked u = true := by
  simp [record, hnow]

/-- A thread moves to a place where it fills nothing, and takes and accepts nothing. -/
theorem Inv.goto (hs : Inv s h) {a : RingLabel T R} (hstep : s.step a = some (s.goto t pc))
    (hfills : pc.fills? = none) (haccepts : accepts s a = none)
    (htakes : takes s (s.goto t pc) a = none) (hbegins : ∀ u, u ≠ t → begins u a = false)
    (hreturns : returns s h a = none) (hholding : Holding pc = Holding (s.pcs t))
    (hclaims : ∀ u, claims s (s.goto t pc) h a u = h.claimed u ∨
      u = t ∧ claims s (s.goto t pc) h a u = none ∧ Holding (s.pcs t) = false)
    (hpc : ClaimFits (s.goto t pc) (record s a (s.goto t pc) h) t pc) :
    Inv (s.goto t pc) (record s a (s.goto t pc) h) := by
  have hg : Grows s (s.goto t pc) t pc := by
    refine ⟨rfl, hs.sound.step hstep, fun _ _ hx => hx, fun p hp => ?_⟩
    rw [hfills] at hp
    cases hp
  exact hs.quiet hg rfl (by simp [record, haccepts]) (by simp [record, htakes])
    (by simp [record, hreturns]) hholding hclaims
    (fun u hut hu => wasBlocked_record (hbegins u hut) hu) (fun hnow => wasBlocked_now hnow) hpc

/-- What the thread has claimed stays while it takes and begins nothing. -/
theorem claims_step {spurious : Bool} (htakes : takes s s' (.step t spurious) = none) :
    claims s s' h (.step t spurious) = h.claimed := by
  simp [claims, htakes]

theorem takes_of_ne (hpcs : s'.pcs = Function.update s.pcs t pc) (spurious : Bool)
    (hread : ∀ pos, pc ≠ .read pos) : takes s s' (.step t spurious) = none := by
  simp only [takes, hpcs, Function.update_self]

theorem takes_of_read {pos : ℕ} {item : R} (hpcs : s'.pcs = Function.update s.pcs t (.read pos))
    (spurious : Bool) (hitem : s.storage (s.index pos) = some item) :
    takes s s' (.step t spurious) = some ⟨t, pos, item⟩ := by
  simp only [takes, hpcs, Function.update_self, hitem, Option.map_some]

/-- A step within a call that takes and accepts nothing. -/
theorem Inv.within (hs : Inv s h) {spurious : Bool} (hg : Grows s s' t pc)
    (hpos : s'.dequeuePos = s.dequeuePos) (hpublish : ∀ item pos, s.pcs t ≠ .publish item pos)
    (hread : ∀ pos, pc ≠ .read pos) (hholding : Holding pc = Holding (s.pcs t))
    (hpc : ∀ h' : History T R, h'.claimed = h.claimed →
      (h.wasBlocked t = true → h'.wasBlocked t = true) → ClaimFits s' h' t pc) :
    Inv s' (record s (.step t spurious) s' h) := by
  have htakes : takes s s' (.step t spurious) = none := takes_of_ne hg.pcs spurious hread
  have hclaims := claims_step (h := h) htakes
  have haccepts : accepts s (.step t spurious) = none := by
    rw [accepts]
    split
    · next item pos hp => exact absurd hp (hpublish item pos)
    · rfl
  exact hs.quiet hg hpos (by simp [record, haccepts]) (by simp [record, htakes])
    (by simp [record, returns]) hholding (fun u => .inl (congrFun hclaims u)) (fun u _ hu => wasBlocked_record rfl hu)
    (fun hnow => wasBlocked_now hnow) (hpc _ hclaims fun hb => wasBlocked_record rfl hb)

/-- A step within a call that only changes the place. -/
theorem Inv.stepGoto (hs : Inv s h) {spurious : Bool}
    (hstep : s.step (.step t spurious) = some (s.goto t pc)) (hfills : pc.fills? = none)
    (hpublish : ∀ item pos, s.pcs t ≠ .publish item pos) (hread : ∀ pos, pc ≠ .read pos)
    (hholding : Holding pc = Holding (s.pcs t))
    (hpc : ∀ h' : History T R, h'.claimed = h.claimed →
      (h.wasBlocked t = true → h'.wasBlocked t = true) → ClaimFits (s.goto t pc) h' t pc) :
    Inv (s.goto t pc) (record s (.step t spurious) (s.goto t pc) h) := by
  refine hs.within ⟨rfl, hs.sound.step hstep, fun _ _ hx => hx, fun p hp => ?_⟩ rfl hpublish hread
    hholding hpc
  rw [hfills] at hp
  cases hp

/-- A `dequeue` returns with its item. -/
theorem Inv.give (hs : Inv s h) {item : R} (hstep : s.step (.leave t) = some (s.goto t .out))
    (hpc : s.pcs t = .dequeued (some item)) :
    Inv (s.goto t .out) (record s (.leave t) (s.goto t .out) h) := by
  have hfits := hs.fits t
  rw [hpc] at hfits
  obtain ⟨pos, hclaim⟩ := hfits
  obtain ⟨-, htaken⟩ := hs.claimed t _ hclaim
  have hfirst := (hs.held _ htaken).mpr ⟨hclaim, by rw [hpc]; rfl⟩
  have hg : Grows s (s.goto t .out) t .out :=
    ⟨rfl, hs.sound.step hstep, fun _ _ hx => hx, fun _ hp => absurd hp (by simp [RingPc.fills?])⟩
  have hreturned : (record s (.leave t) (s.goto t .out) h).returned =
      h.returned ++ [⟨t, pos, item⟩] := by
    simp [record, returns, hpc, hclaim]
  have hsame : (record s (.leave t) (s.goto t .out) h).taken = h.taken := by
    simp [record, takes]
  constructor
  · exact hg.sound
  · exact fun x hx => accepted_step hs hg x (by simpa [record, accepts] using hx)
  · simpa [record, accepts] using hs.distinct
  · simpa [record, accepts] using hs.order
  · exact fun u p hu x hx => later_step hs hg u p hu x (by simpa [record, accepts] using hx)
  · rw [hsame]
    exact hs.positions
  · rw [hsame]
    exact hs.taken
  · rw [hsame]
    exact hs.claimed
  · intro u
    by_cases hut : u = t
    · subst hut
      rw [hg.pcs, Function.update_self]
      trivial
    · exact fits_of_ne hs hg hut rfl fun hu => wasBlocked_record rfl hu
  · intro y hy
    rw [hreturned] at hy
    rw [hsame]
    rcases List.mem_append.mp hy with hy | hy
    · exact hs.returned y hy
    · exact List.mem_singleton.mp hy ▸ htaken
  · rw [hreturned, List.map_append, List.map_singleton, List.nodup_append]
    refine ⟨hs.once, List.nodup_singleton _, ?_⟩
    intro p hp q hq hpq
    obtain ⟨x, hx, rfl⟩ := List.mem_map.mp hp
    rw [List.mem_singleton] at hq
    exact hfirst (hs.unique (hs.returned x hx) htaken (hpq.trans hq) ▸ hx)
  · intro y hy
    rw [hsame] at hy
    have hheld := hs.held y hy
    have hclaimed : (record s (.leave t) (s.goto t .out) h).claimed = h.claimed := rfl
    rw [hreturned, hclaimed, hg.pcs]
    by_cases hthread : y.thread = t
    · have hback : y ∈ h.returned ++ [⟨t, pos, item⟩] := by
        by_cases hmem : y ∈ h.returned
        · exact List.mem_append_left _ hmem
        · have hy := (hheld.mp hmem).1
          rw [hthread, hclaim] at hy
          exact Option.some.inj hy ▸ List.mem_append_right _ (List.mem_singleton_self _)
      simp only [hback, not_true_eq_false, false_iff, hthread, Function.update_self]
      exact fun hhold => absurd hhold.2 (by simp [Holding])
    · rw [Function.update_of_ne hthread, List.mem_append, List.mem_singleton]
      have hne : y ≠ ⟨t, pos, item⟩ := fun heq => hthread (congrArg Entry.thread heq)
      simp only [hne, or_false]
      exact hheld
  · exact fun hnow => wasBlocked_now hnow

/-- **Every step keeps the invariant.** -/
theorem Inv.step (hs : Inv s h) {a : RingLabel T R} (hstep : s.step a = some s') :
    Inv s' (record s a s' h) := by
  have hgiven := hstep
  have hsound := hs.sound.step hstep
  cases a with
  | enqueue t item =>
    obtain ⟨hout, rfl⟩ := guarded hstep
    have hpc := RingPc.eq_out hout
    refine hs.goto hgiven rfl rfl rfl (fun u hut => ?_) rfl (by rw [hpc]; rfl)
      (fun u => .inl rfl) trivial
    simp [begins, hut.symm]
  | dequeue t =>
    obtain ⟨hout, rfl⟩ := guarded hstep
    have hpc := RingPc.eq_out hout
    refine hs.goto hgiven rfl rfl rfl (fun _ _ => rfl) rfl (by rw [hpc]; rfl) (fun u => ?_)
      (Function.update_self ..)
    by_cases hut : u = t
    · exact .inr ⟨hut, hut ▸ Function.update_self .., by rw [hpc]; rfl⟩
    · exact .inl (Function.update_of_ne hut ..)
  | leave t =>
    rw [TicketRing.step] at hstep
    split at hstep
    · next item ok hpc =>
      obtain ⟨⟩ := hstep
      exact hs.goto hgiven rfl rfl rfl (fun _ _ => rfl) (by rw [returns, hpc])
        (by rw [hpc]; rfl) (fun u => .inl rfl) trivial
    · next item hpc =>
      obtain ⟨⟩ := hstep
      cases item with
      | none =>
        exact hs.goto hgiven rfl rfl rfl (fun _ _ => rfl) (by rw [returns, hpc])
          (by rw [hpc]; rfl) (fun u => .inl rfl) trivial
      | some item => exact hs.give hgiven hpc
    · cases hstep
  | step t spurious =>
    have hfits := hs.fits t
    rw [TicketRing.step, TicketRing.stepThread] at hstep
    split at hstep
    · next item hpc =>
      obtain ⟨⟩ := hstep
      exact hs.stepGoto hgiven rfl (by simp [hpc]) (by simp)
          (by rw [hpc]; rfl) fun _ _ _ => trivial
    · next item pos hpc =>
      obtain ⟨⟩ := hstep
      split_ifs at hgiven hsound ⊢ with hsame hbehind
      · exact hs.stepGoto hgiven rfl (by simp [hpc]) (by simp)
          (by rw [hpc]; rfl) fun _ _ _ => trivial
      · -- the slot of the next position has been occupied at this moment
        obtain ⟨hpos, q, hq, hoccupied⟩ := hs.sound.refused hpc hbehind
        have hblocked : isBlocked s = true := by
          have hsub : s.enqueuePos - s.capacity = q := by omega
          exact decide_eq_true ⟨by omega, hsub ▸ hoccupied⟩
        exact hs.stepGoto hgiven rfl (by simp [hpc]) (by simp)
          (by rw [hpc]; rfl) fun _ _ hb => hb (hs.blocked hblocked t)
      · exact hs.stepGoto hgiven rfl (by simp [hpc]) (by simp)
          (by rw [hpc]; rfl) fun _ _ _ => trivial
    · next item pos hpc =>
      split_ifs at hstep with hclaim
      · obtain ⟨⟩ := hstep
        refine hs.within ⟨rfl, hsound, fun p x hx => ?_, fun p hp => ?_⟩ rfl (by simp [hpc])
          (by simp) (by rw [hpc]; rfl) fun _ _ _ => trivial
        · exact (List.getElem?_append_left (List.getElem?_eq_some_iff.mp hx).1).trans hx
        · exact .inr ((Option.some.inj hp).symm.trans hclaim.1.symm)
      · obtain ⟨⟩ := hstep
        exact hs.stepGoto hgiven rfl (by simp [hpc]) (by simp)
          (by rw [hpc]; rfl) fun _ _ _ => trivial
    · next item pos hpc =>
      obtain ⟨⟩ := hstep
      refine hs.within ⟨rfl, hsound, fun _ _ hx => hx, fun p hp => ?_⟩ rfl (by simp [hpc])
        (by simp) (by rw [hpc]; rfl) fun _ _ _ => trivial
      rw [hpc]
      exact .inl hp
    · next item pos hpc =>
      obtain ⟨⟩ := hstep
      have hg : Grows s ((s.number pos (pos + 1)).goto t (.enqueued item true)) t
          (.enqueued item true) :=
        ⟨rfl, hsound, fun _ _ hx => hx, fun _ hp => absurd hp (by simp [RingPc.fills?])⟩
      have htakes := takes_of_ne hg.pcs spurious (by simp)
      have hfill : (s.pcs t).fills? = some pos := by rw [hpc]; rfl
      exact hs.accept hpc hg rfl (by simp [record, accepts, hpc]) (by simp [record, htakes])
        (claims_step htakes) (by simp [record, returns]) (fun u hu => wasBlocked_record rfl hu) (fun hnow => wasBlocked_now hnow)
        (hs.sound.publish hpc) fun u hut hu => hut (hs.sound.fills_unique hu hfill)
    · next hpc =>
      obtain ⟨⟩ := hstep
      rw [hpc] at hfits
      exact hs.stepGoto hgiven rfl (by simp [hpc]) (by simp)
          (by rw [hpc]; rfl) fun _ hc _ => (congrFun hc t).trans hfits
    · next pos hpc =>
      obtain ⟨⟩ := hstep
      rw [hpc] at hfits
      split_ifs at hgiven hsound ⊢
      · exact hs.stepGoto hgiven rfl (by simp [hpc]) (by simp)
          (by rw [hpc]; rfl) fun _ hc _ => (congrFun hc t).trans hfits
      · exact hs.stepGoto hgiven rfl (by simp [hpc]) (by simp)
          (by rw [hpc]; rfl) fun _ hc _ => (congrFun hc t).trans hfits
      · exact hs.stepGoto hgiven rfl (by simp [hpc]) (by simp)
          (by rw [hpc]; rfl) fun _ hc _ => (congrFun hc t).trans hfits
    · next pos hpc =>
      rw [hpc] at hfits
      split_ifs at hstep with htake
      · obtain ⟨⟩ := hstep
        have hread : (Function.update s.pcs t (.read pos)) t = .read pos := Function.update_self ..
        obtain ⟨item, hitem, hlog⟩ := hsound.read hread
        have htakes : takes s { s.goto t (.read pos) with dequeuePos := pos + 1 }
            (.step t spurious) = some ⟨t, pos, item⟩ := takes_of_read rfl spurious hitem
        exact hs.take
          ⟨rfl, hsound, fun _ _ hx => hx, fun _ hp => absurd hp (by simp [RingPc.fills?])⟩ htake.1
          rfl (by simp [record, accepts, hpc]) (by simp [record, htakes])
          (by simp [record, claims, htakes]) (by simp [record, returns]) (by rw [hpc]; rfl) (fun u hu => wasBlocked_record rfl hu)
          (fun hnow => wasBlocked_now hnow) hlog
      · obtain ⟨⟩ := hstep
        exact hs.stepGoto hgiven rfl (by simp [hpc]) (by simp)
          (by rw [hpc]; rfl) fun _ hc _ => (congrFun hc t).trans hfits
    · next pos hpc =>
      obtain ⟨item, hitem, rfl⟩ := Option.map_eq_some_iff.mp hstep
      rw [hpc] at hfits
      obtain ⟨item', hlog, hclaim⟩ := hfits
      obtain ⟨item'', hitem'', hlog''⟩ := hs.sound.read hpc
      obtain rfl := Option.some.inj (hitem.symm.trans hitem'')
      obtain rfl := Option.some.inj (hlog.symm.trans hlog'')
      refine hs.within ⟨rfl, hsound, fun _ _ hx => hx, fun _ hp => absurd hp ?_⟩ rfl
        (by simp [hpc]) (by simp)
          (by rw [hpc]; rfl) fun _ hc _ => (congrFun hc t).trans hclaim
      simp [RingPc.fills?]
    · next item pos hpc =>
      obtain ⟨⟩ := hstep
      rw [hpc] at hfits
      refine hs.within ⟨rfl, hsound, fun _ _ hx => hx, fun _ hp => absurd hp ?_⟩ rfl
        (by simp [hpc]) (by simp)
          (by rw [hpc]; rfl) fun _ hc _ => ⟨pos, (congrFun hc t).trans hfits⟩
      simp [RingPc.fills?]
    · cases hstep

/-- **The invariant holds in every run.** -/
theorem inv_of_reachable {c : QueueCapacity} {p : TicketRing T R × History T R}
    (hp : (observed T R c).Reachable p) : Inv p.1 p.2 := by
  refine Machine.ReachableUnder.invariant (I := fun p => Inv p.1 p.2) ⟨?_, ?_⟩ hp
  · rintro ⟨s, h⟩ ⟨rfl, rfl⟩
    exact {
      sound := TicketRing.sound_empty c.two_le
      accepted := fun x hx => absurd hx List.not_mem_nil
      distinct := List.nodup_nil
      order := List.Pairwise.nil
      later := fun _ _ _ x hx => absurd hx List.not_mem_nil
      positions := rfl
      taken := fun y hy => absurd hy List.not_mem_nil
      claimed := fun t y hy => absurd hy (by simp)
      fits := fun t => trivial
      returned := fun y hy => absurd hy List.not_mem_nil
      once := List.nodup_nil
      held := fun y hy => absurd hy List.not_mem_nil
      blocked := fun hnow => by
        have hle := (of_decide_eq_true hnow).1
        have hpos := c.two_le
        exact absurd (hpos.trans hle) (by simp) }
  · rintro ⟨s, h⟩ a ⟨s', h'⟩ hinv - hstep
    obtain ⟨hs', hrecord⟩ := Machine.withHistory_step.mp hstep
    exact hrecord ▸ Inv.step hinv hs'

/-! ## What the queue promises -/

/-- What holds of the queue after the run `h`. -/
structure Fifo (s : TicketRing T R) (h : History T R) : Prop where
  /-- the accepted items have positions of their own, -/
  distinct : (h.accepted.map Entry.pos).Nodup
  /-- those of one producer in the order of its calls, -/
  order : h.accepted.Pairwise fun x y => x.thread = y.thread → x.pos < y.pos
  /-- and the positions are taken one after the other, each once: -/
  positions : h.taken.map Entry.pos = List.range s.dequeuePos
  /-- an accepted item has been taken, once its position is behind, -/
  taken : ∀ x ∈ h.accepted, x.pos < s.dequeuePos → ∃ y ∈ h.taken, y.pos = x.pos ∧ y.item = x.item
  /-- or else it stands in its slot. -/
  stands : ∀ x ∈ h.accepted, s.dequeuePos ≤ x.pos → s.storage (s.index x.pos) = some x.item
  /-- What a `dequeue` returns it has taken, -/
  returns : ∀ t item, s.pcs t = .dequeued (some item) →
    ∃ y ∈ h.taken, h.claimed t = some y ∧ y.thread = t ∧ y.item = item
  returned : ∀ y ∈ h.returned, y ∈ h.taken
  /-- and it returns it once; what was taken and not returned is held by its thread. -/
  once : (h.returned.map Entry.pos).Nodup
  held : ∀ y ∈ h.taken, y ∉ h.returned ↔ h.claimed y.thread = some y ∧
    Holding (s.pcs y.thread) = true
  /-- A slot is empty when it is written, -/
  writes : ∀ t item pos, s.pcs t = .write item pos → s.storage (s.index pos) = none
  /-- and published, with the item that was accepted, when it is read. -/
  reads : ∀ t pos, s.pcs t = .read pos → s.sequence (s.index pos) = pos + 1 ∧
    ∃ item, s.storage (s.index pos) = some item ∧ h.claimed t = some ⟨t, pos, item⟩
  bounded : s.enqueuePos ≤ s.dequeuePos + s.capacity
  /-- A refused `enqueue` has seen the slot of the next position occupied. -/
  refused : ∀ t item, s.pcs t = .enqueued item false → h.wasBlocked t = true

omit [DecidableEq T] in
/-- What was accepted and is behind the position of the dequeues has been taken. -/
theorem Inv.taken_of_lt (hs : Inv s h) {x : Entry T R} (hx : x ∈ h.accepted)
    (hlt : x.pos < s.dequeuePos) : ∃ y ∈ h.taken, y.pos = x.pos ∧ y.item = x.item := by
  have hmem : x.pos ∈ h.taken.map Entry.pos := hs.positions ▸ List.mem_range.mpr hlt
  obtain ⟨y, hy, hpos⟩ := List.mem_map.mp hmem
  have hitem : s.log[x.pos]? = some y.item := hpos ▸ hs.taken y hy
  exact ⟨y, hy, hpos, Option.some.inj (hitem.symm.trans (hs.accepted x hx).1)⟩

/-- What was accepted and is not behind it stands in its slot. -/
theorem Inv.stands_of_le (hs : Inv s h) {x : Entry T R} (hx : x ∈ h.accepted)
    (hle : s.dequeuePos ≤ x.pos) : s.storage (s.index x.pos) = some x.item := by
  obtain ⟨hlog, hnone⟩ := hs.accepted x hx
  obtain ⟨item, hitem, hlog'⟩ := hs.sound.stands hle (lt_of_log hs.sound hlog) hnone
  rw [hitem, ← hlog', hlog]

/-- **The queue is first in, first out**, for every interleaving of any number of producers and
consumers. -/
theorem queue_fifo (c : QueueCapacity) (s : TicketRing T R) (h : History T R)
    (hrun : (observed T R c).Reachable (s, h)) : Fifo s h := by
  have hinv : Inv s h := inv_of_reachable hrun
  refine { hinv with
    taken := fun x hx hlt => hinv.taken_of_lt hx hlt
    stands := fun x hx hle => hinv.stands_of_le hx hle
    returns := fun t item hpc => ?_
    writes := fun t item pos hpc => (hinv.sound.write hpc).1
    reads := fun t pos hpc => ?_
    bounded := hinv.sound.held_le
    refused := fun t item hpc => ?_ }
  · have hfits := hinv.fits t
    rw [hpc] at hfits
    obtain ⟨pos, hclaim⟩ := hfits
    exact ⟨_, (hinv.claimed t _ hclaim).2, hclaim, rfl, rfl⟩
  · have hfits := hinv.fits t
    rw [hpc] at hfits
    obtain ⟨item, hlog, hclaim⟩ := hfits
    obtain ⟨item', hitem, hlog'⟩ := hinv.sound.read hpc
    obtain rfl := Option.some.inj (hlog.symm.trans hlog')
    exact ⟨hinv.sound.read_published hpc, item, hitem, hclaim⟩
  · have hfits := hinv.fits t
    rw [hpc] at hfits
    exact hfits

/-! ## A slow consumer -/

/-- Whole calls of a thread, one after the other: what begins them, and five steps each. -/
def calls (t : ℕ) (begin_ : List (RingLabel ℕ ℕ)) : List (RingLabel ℕ ℕ) :=
  begin_.flatMap fun a => a :: List.replicate 5 (.step t false) ++ [.leave t]

/-- The smallest queue. -/
def smallest : QueueCapacity := ⟨4, by decide, by decide⟩

/-- The queue is filled; thread 1 has taken the first item and is slow to read it; thread 2 takes all
the others, and an item is refused though 15 of the 16 slots are free. -/
def refusedRun : List (RingLabel ℕ ℕ) :=
  calls 0 ((List.range 16).map (.enqueue 0)) ++
    .dequeue 1 :: List.replicate 3 (.step 1 false) ++ calls 2 (List.replicate 15 (.dequeue 2)) ++
    .enqueue 0 16 :: List.replicate 2 (.step 0 false)

/-- An item is refused while one position is occupied, and not `capacity()`. -/
theorem refused_by_one_consumer :
    ¬ ∀ (s : TicketRing ℕ ℕ) (h : History ℕ ℕ), (observed ℕ ℕ smallest).Reachable (s, h) →
      ∀ t item, s.pcs t = .enqueued item false → h.wasFull t = true := by
  intro hall
  have hrun : ((observed ℕ ℕ smallest).exec ({ capacity := 16 }, {}) refusedRun).any (fun p =>
      decide (p.1.pcs 0 = .enqueued 16 false) && !p.2.wasFull 0) = true := by
    decide +kernel
  obtain ⟨p, hexec, hp⟩ := (Option.any_eq_true _ _).mp hrun
  rw [Bool.and_eq_true, decide_eq_true_eq, Bool.not_eq_true'] at hp
  have hinit : (observed ℕ ℕ smallest).Reachable ({ capacity := 16 }, {}) := .init ⟨rfl, rfl⟩
  have hfull := hall p.1 p.2 (hinit.exec hexec) 0 16 hp.1
  rw [hp.2] at hfull
  cases hfull

/-- The promises hold at the end of that run. -/
theorem queue_fifo_refused :
    ∃ p, (observed ℕ ℕ smallest).exec ({ capacity := 16 }, {}) refusedRun = some p ∧
      Fifo p.1 p.2 := by
  have hrun : ((observed ℕ ℕ smallest).exec ({ capacity := 16 }, {}) refusedRun).isSome = true := by
    decide +kernel
  obtain ⟨p, hexec⟩ := Option.isSome_iff_exists.mp hrun
  have hinit : (observed ℕ ℕ smallest).Reachable ({ capacity := 16 }, {}) := .init ⟨rfl, rfl⟩
  exact ⟨p, hexec, queue_fifo smallest p.1 p.2 (hinit.exec hexec)⟩

end ThreadSafeQueue

end AxonVex
