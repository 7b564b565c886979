import AxonVex.Core.MemoryPool
import Mathlib.Data.Finset.Card

/-!
# Core/Sizes — sizes read while other threads work

    size():           enq_pos ← enqueue_pos_;  deq_pos ← dequeue_pos_;  enq_pos - deq_pos
    getAvailable():   pool_size_ - allocated_count_
    deallocate():     …;  CAS free_head_: head → b;  allocated_count_ -= 1

`size()` subtracts a position that is read later than the one it is subtracted from: an observer that
is held up in between, while more is dequeued than was queued, gets a difference that has wrapped
around.  `deallocate()` puts its block on the list before it subtracts it, and so another thread can
allocate and count the block a second time: the usage is then above the capacity, and what
`getAvailable()` returns has wrapped around.  Otherwise both stay in range
(`sizes_in_range_iff`).
-/

namespace AxonVex

open Machinery

/-- The subtraction of `uint64_t` and `size_t`. -/
def sub64 (a b : ℕ) : ℕ := (BitVec.ofNat 64 a - BitVec.ofNat 64 b).toNat

theorem sub64_of_le {a b : ℕ} (hle : b ≤ a) (ha : a - b < 2 ^ 64) : sub64 a b = a - b := by
  rw [sub64, BitVec.toNat_sub, BitVec.toNat_ofNat, BitVec.toNat_ofNat]
  omega

theorem sub64_of_lt {a b : ℕ} (hlt : a < b) (hb : (b - a) % 2 ^ 64 ≠ 0) :
    sub64 a b = 2 ^ 64 - (b - a) % 2 ^ 64 := by
  rw [sub64, BitVec.toNat_sub, BitVec.toNat_ofNat, BitVec.toNat_ofNat]
  omega

theorem sub64_of_dvd {a b : ℕ} (hlt : a < b) (hb : (b - a) % 2 ^ 64 = 0) : sub64 a b = 0 := by
  rw [sub64, BitVec.toNat_sub, BitVec.toNat_ofNat, BitVec.toNat_ofNat]
  omega

theorem QueueCapacity.lt_word (c : QueueCapacity) : c.capacity_ < 2 ^ 64 :=
  c.atMost.trans_lt (by decide)

/-! ## The queue and its observers -/

namespace ThreadSafeQueue

/-- Where an observer stands in `size()`. -/
inductive Observer
  | out
  /-- about to load `dequeue_pos_` -/
  | loaded (enq_pos : ℕ)
  | returned (size : ℕ)
  deriving DecidableEq, Repr

/-- A step of a run: of the queue, or of an observer. -/
inductive SizeLabel (T R O : Type*)
  | queue (a : RingLabel T R)
  /-- the observer calls `size()` and loads `enqueue_pos_` -/
  | load (o : O)
  /-- it loads `dequeue_pos_`, and returns -/
  | subtract (o : O)
  deriving DecidableEq, Repr

variable {T R O : Type*} [DecidableEq T] [DecidableEq O]

/-- The step with this label. -/
def sizeStep (p : TicketRing T R × (O → Observer)) :
    SizeLabel T R O → Option (TicketRing T R × (O → Observer))
  | .queue a => (p.1.step a).map fun s => (s, p.2)
  | .load o => some (p.1, Function.update p.2 o (.loaded p.1.enqueuePos))
  | .subtract o => match p.2 o with
    | .loaded enq_pos =>
      some (p.1, Function.update p.2 o (.returned (sub64 enq_pos p.1.dequeuePos)))
    | _ => none

/-- The queue of this capacity as it is constructed, and nobody observes it. -/
def unobserved (T R O : Type*) (c : QueueCapacity) : TicketRing T R × (O → Observer) :=
  ({ capacity := c.capacity_ }, fun _ => .out)

/-- The queue of this capacity with its observers, from its construction on. -/
def sized (T R O : Type*) [DecidableEq T] [DecidableEq O] (c : QueueCapacity) :
    Machine (TicketRing T R × (O → Observer)) (SizeLabel T R O) where
  init p := p = unobserved T R O c
  step := sizeStep

/-- Every size that was returned is one of the queue. -/
def SizesInRange (c : QueueCapacity) (p : TicketRing T R × (O → Observer)) : Prop :=
  ∀ o n, p.2 o = .returned n → n ≤ c.capacity_

/-- **The observer is in time**: no more was dequeued between its loads than was queued at the first
(or more by a number that the wrap-around hides: one that is 0, or at least `2⁶⁴` less the capacity,
modulo `2⁶⁴`). -/
def InTime (c : QueueCapacity) (p : TicketRing T R × (O → Observer)) : SizeLabel T R O → Prop
  | .subtract o => ∀ enq_pos, p.2 o = .loaded enq_pos →
    p.1.dequeuePos ≤ enq_pos ∨ (p.1.dequeuePos - enq_pos) % 2 ^ 64 = 0 ∨
      2 ^ 64 ≤ (p.1.dequeuePos - enq_pos) % 2 ^ 64 + c.capacity_
  | _ => True

variable {c : QueueCapacity} {s s' : TicketRing T R} {p q : TicketRing T R × (O → Observer)}

/-- A position that is dequeued stays so. -/
theorem stepThread_keeps {t : T} {spurious : Bool} (hstep : s.stepThread t spurious = some s') :
    s'.capacity = s.capacity ∧ s.dequeuePos ≤ s'.dequeuePos := by
  rw [TicketRing.stepThread] at hstep
  split at hstep
  · obtain ⟨⟩ := hstep
    exact ⟨rfl, le_rfl⟩
  · obtain ⟨⟩ := hstep
    exact ⟨rfl, le_rfl⟩
  · split_ifs at hstep <;> obtain rfl := Option.some.inj hstep <;> exact ⟨rfl, le_rfl⟩
  · obtain ⟨⟩ := hstep
    exact ⟨rfl, le_rfl⟩
  · obtain ⟨⟩ := hstep
    exact ⟨rfl, le_rfl⟩
  · obtain ⟨⟩ := hstep
    exact ⟨rfl, le_rfl⟩
  · obtain ⟨⟩ := hstep
    exact ⟨rfl, le_rfl⟩
  · next pos hpc =>
    split_ifs at hstep with htake
    · obtain ⟨⟩ := hstep
      exact ⟨rfl, htake.1.trans_le (Nat.le_succ pos)⟩
    · obtain ⟨⟩ := hstep
      exact ⟨rfl, le_rfl⟩
  · obtain ⟨item, -, rfl⟩ := Option.map_eq_some_iff.mp hstep
    exact ⟨rfl, le_rfl⟩
  · obtain ⟨⟩ := hstep
    exact ⟨rfl, le_rfl⟩
  · cases hstep

theorem step_keeps {a : RingLabel T R} (hstep : s.step a = some s') :
    s'.capacity = s.capacity ∧ s.dequeuePos ≤ s'.dequeuePos := by
  cases a with
  | enqueue t item =>
    obtain ⟨-, rfl⟩ := guarded hstep
    exact ⟨rfl, le_rfl⟩
  | dequeue t =>
    obtain ⟨-, rfl⟩ := guarded hstep
    exact ⟨rfl, le_rfl⟩
  | step t spurious => exact stepThread_keeps hstep
  | leave t =>
    rw [TicketRing.step] at hstep
    split at hstep
    · obtain ⟨⟩ := hstep
      exact ⟨rfl, le_rfl⟩
    · obtain ⟨⟩ := hstep
      exact ⟨rfl, le_rfl⟩
    · cases hstep

/-- What an observer has loaded is at most the capacity ahead. -/
structure Observed (c : QueueCapacity) (p : TicketRing T R × (O → Observer)) : Prop where
  sound : p.1.Sound
  capacity : p.1.capacity = c.capacity_
  loaded : ∀ o enq_pos, p.2 o = .loaded enq_pos → enq_pos ≤ p.1.dequeuePos + c.capacity_

/-- The size that is returned is in range exactly if the observer is in time. -/
theorem sub64_le_iff {enq_pos deq_pos : ℕ} (h : enq_pos ≤ deq_pos + c.capacity_) :
    sub64 enq_pos deq_pos ≤ c.capacity_ ↔ deq_pos ≤ enq_pos ∨ (deq_pos - enq_pos) % 2 ^ 64 = 0 ∨
      2 ^ 64 ≤ (deq_pos - enq_pos) % 2 ^ 64 + c.capacity_ := by
  have hcap := c.lt_word
  rcases Nat.lt_or_ge enq_pos deq_pos with hlt | hle
  · rcases Nat.eq_zero_or_pos ((deq_pos - enq_pos) % 2 ^ 64) with hzero | hpos
    · rw [sub64_of_dvd hlt hzero]
      exact ⟨fun _ => .inr (.inl hzero), fun _ => Nat.zero_le _⟩
    · rw [sub64_of_lt hlt hpos.ne']
      omega
  · rw [sub64_of_le hle (by omega)]
    exact ⟨fun _ => .inl hle, fun _ => by omega⟩

/-- The step of an observer that returns. -/
theorem sizeStep_subtract {o : O} (hstep : sizeStep p (.subtract o) = some q) :
    ∃ enq_pos, p.2 o = .loaded enq_pos ∧ q.1 = p.1 ∧
      q.2 = Function.update p.2 o (.returned (sub64 enq_pos p.1.dequeuePos)) := by
  rw [sizeStep] at hstep
  split at hstep
  · next enq_pos hloaded =>
    obtain ⟨⟩ := hstep
    exact ⟨enq_pos, hloaded, rfl, rfl⟩
  · cases hstep

/-- **Every step keeps what is known of the loads.** -/
theorem Observed.step (hp : Observed c p) {a : SizeLabel T R O} (hstep : sizeStep p a = some q) :
    Observed c q := by
  cases a with
  | queue a =>
    obtain ⟨s, hs, rfl⟩ := Option.map_eq_some_iff.mp hstep
    obtain ⟨hcapacity, hdequeue⟩ := step_keeps hs
    refine ⟨hp.sound.step hs, hcapacity.trans hp.capacity, fun o enq_pos ho => ?_⟩
    exact (hp.loaded o enq_pos ho).trans (Nat.add_le_add_right hdequeue _)
  | load o =>
    obtain ⟨⟩ := hstep
    refine ⟨hp.sound, hp.capacity, fun u enq_pos hu => ?_⟩
    rcases eq_or_ne u o with rfl | hne
    · obtain rfl := Observer.loaded.inj ((Function.update_self ..).symm.trans hu)
      exact hp.capacity ▸ hp.sound.held_le
    · exact hp.loaded u enq_pos ((Function.update_of_ne hne ..).symm.trans hu)
  | subtract o =>
    obtain ⟨enq_pos, -, hring, hobservers⟩ := sizeStep_subtract hstep
    refine ⟨hring ▸ hp.sound, hring ▸ hp.capacity, fun u pos hu => ?_⟩
    rw [hobservers] at hu
    rw [hring]
    rcases eq_or_ne u o with rfl | hne
    · cases (Function.update_self ..).symm.trans hu
    · exact hp.loaded u pos ((Function.update_of_ne hne ..).symm.trans hu)

/-- **One step keeps the sizes in range exactly if its observer is in time.** -/
theorem sizesInRange_iff_inTime (hp : Observed c p) (hsizes : SizesInRange c p)
    {a : SizeLabel T R O} (hstep : sizeStep p a = some q) : SizesInRange c q ↔ InTime c p a := by
  cases a with
  | queue a =>
    obtain ⟨s, -, rfl⟩ := Option.map_eq_some_iff.mp hstep
    exact iff_of_true hsizes trivial
  | load o =>
    obtain ⟨⟩ := hstep
    refine iff_of_true (fun u n hu => ?_) trivial
    rcases eq_or_ne u o with rfl | hne
    · cases (Function.update_self ..).symm.trans hu
    · exact hsizes u n ((Function.update_of_ne hne ..).symm.trans hu)
  | subtract o =>
    obtain ⟨enq_pos, hloaded, -, hobservers⟩ := sizeStep_subtract hstep
    have hiff := sub64_le_iff (hp.loaded o enq_pos hloaded)
    constructor
    · intro hq pos hpos
      obtain rfl := Observer.loaded.inj (hloaded.symm.trans hpos)
      exact hiff.mp (hq o _ (by rw [hobservers, Function.update_self]))
    · intro htime u n hu
      rw [hobservers] at hu
      rcases eq_or_ne u o with rfl | hne
      · obtain rfl := Observer.returned.inj ((Function.update_self ..).symm.trans hu)
        exact hiff.mpr (htime enq_pos hloaded)
      · exact hsizes u n ((Function.update_of_ne hne ..).symm.trans hu)

omit [DecidableEq T] [DecidableEq O] in
theorem observed_unobserved (c : QueueCapacity) : Observed c (unobserved T R O c) :=
  ⟨TicketRing.sound_empty c.two_le, rfl, fun _ _ ho => by cases ho⟩

/-- **A run returns sizes in range** exactly if its observers are in time. -/
theorem always_sizesInRange_iff (c : QueueCapacity) (as : List (SizeLabel T R O)) :
    (sized T R O c).Always (SizesInRange c) (unobserved T R O c) as ↔
      (sized T R O c).Allowed (InTime c) (unobserved T R O c) as :=
  Machine.always_iff_allowed (I := Observed c) (fun _ _ _ hI _ hstep => hI.step hstep)
    (fun _ _ _ hI hP hstep => sizesInRange_iff_inTime hI hP hstep) (observed_unobserved c)
    (fun _ _ ho => by cases ho) as

end ThreadSafeQueue

/-! ## The pool -/

namespace TaggedPool

variable {T : Type*} [DecidableEq T]

def getUsage (s : TaggedPool T) : ℕ := s.allocated_count_

def getAvailable (s : TaggedPool T) : ℕ := sub64 s.size s.allocated_count_

/-- **The usage is in range**, and what is available is the rest. -/
def UsageInRange (s : TaggedPool T) : Prop :=
  s.getUsage ≤ s.size ∧ s.getAvailable + s.getUsage = s.size

omit [DecidableEq T] in
theorem usageInRange_iff (s : TaggedPool T) : s.UsageInRange ↔ s.allocated_count_ ≤ s.size := by
  constructor
  · exact fun h => h.1
  · intro hle
    have hsize : s.size < 2 ^ 64 := s.capacity.lt_word
    refine ⟨hle, ?_⟩
    rw [getAvailable, getUsage, sub64_of_le hle (by omega)]
    omega

/-- The thread is about to subtract the block that it has put on the list. -/
def Pc.isLate : Pc → Bool
  | uncount _ _ => true
  | _ => false

/-- The thread has counted the block that it holds. -/
def Pc.hasCounted : Pc → Bool
  | flag _ _ => false
  | count _ _ => false
  | _ => true

/-- The block was counted, and has not been put on the list since. -/
def Place.isCounted (pcs : T → Pc) : Place T → Bool
  | free => false
  | allocating t => (pcs t).hasCounted
  | owned _ => true
  | releasing _ => true

/-- The blocks that were counted, and have not been put on the list since. -/
def countedBlocks (s : TaggedPool T) (h : History T) : Finset ℕ :=
  (Finset.range s.size).filter fun b => (h.place b).isCounted s.pcs = true

/-- The threads that are about to subtract. -/
def recordLate (_ : TaggedPool T × History T) (a : Label T) (q : TaggedPool T × History T)
    (late : Finset T) : Finset T :=
  match a with
  | .step t _ => if (q.1.pcs t).isLate then insert t late else late.erase t
  | _ => late

/-- The pool and its run, with the threads that are about to subtract. -/
def counting (T : Type*) [DecidableEq T] : Machine ((TaggedPool T × History T) × Finset T) (Label T) :=
  (observed T).withHistory ∅ recordLate

/-- The runs of callers that keep to the rules. -/
def permitted (T : Type*) [DecidableEq T] :
    Machine ((TaggedPool T × History T) × Finset T) (Label T) where
  init := (counting T).init
  step p a := if permits p.1 a then (counting T).step p a else none

/-- **There is room to count**: when an allocation counts its block, the deallocations that have put
theirs on the list and not subtracted it are fewer than the blocks that are not counted. -/
def Roomy (p : (TaggedPool T × History T) × Finset T) : Label T → Prop
  | .step t _ => ∀ kind b, p.1.1.pcs t = .count kind b →
    (countedBlocks p.1.1 p.1.2).card + p.2.card < p.1.1.size
  | _ => True

/-! ### What a step counts -/

variable {s s' : TaggedPool T} {h h' : History T} {t u : T} {b c : ℕ} {pc : Pc} {spurious : Bool}

omit [DecidableEq T] in
theorem mem_countedBlocks :
    b ∈ countedBlocks s h ↔ b < s.size ∧ (h.place b).isCounted s.pcs = true := by
  rw [countedBlocks, Finset.mem_filter, Finset.mem_range]

omit [DecidableEq T] in
theorem countedBlocks_congr (hcap : s'.capacity = s.capacity)
    (hsame : ∀ c, (h'.place c).isCounted s'.pcs = (h.place c).isCounted s.pcs) :
    countedBlocks s' h' = countedBlocks s h := by
  ext c
  have hsize : s'.size = s.size := congrArg QueueCapacity.capacity_ hcap
  rw [mem_countedBlocks, mem_countedBlocks, hsame, hsize]

/-- A block that stays where it is, and that the thread does not count. -/
theorem Inv.isCounted_stay (hi : Inv s h) (hpcs : s'.pcs = Function.update s.pcs t pc)
    (hcounts : (s.pcs t).holds? = some c → pc.hasCounted = (s.pcs t).hasCounted) :
    (h.place c).isCounted s'.pcs = (h.place c).isCounted s.pcs := by
  cases hc : h.place c with
  | allocating u =>
    change (s'.pcs u).hasCounted = (s.pcs u).hasCounted
    rw [hpcs]
    rcases eq_or_ne u t with rfl | hne
    · rw [Function.update_self]
      exact hcounts (hi.held c u (.inl hc)).2
    · rw [Function.update_of_ne hne]
  | _ => rfl

/-- A step that leaves every block where it is. -/
theorem Inv.countedBlocks_stay (hi : Inv s h) (hcap : s'.capacity = s.capacity)
    (hpcs : s'.pcs = Function.update s.pcs t pc) (hplace : h'.place = h.place)
    (hcounts : ∀ c, (s.pcs t).holds? = some c → pc.hasCounted = (s.pcs t).hasCounted) :
    countedBlocks s' h' = countedBlocks s h := by
  refine countedBlocks_congr hcap fun c => ?_
  rw [hplace]
  exact hi.isCounted_stay hpcs (hcounts c)

/-- A step that moves the block `b`: nothing changes for the others. -/
theorem Inv.isCounted_move (hi : Inv s h) (hpcs : s'.pcs = Function.update s.pcs t pc)
    {place : Place T} (hplace : h'.place = Function.update h.place b place)
    (hholds : ∀ c, (s.pcs t).holds? = some c → c = b) (hcb : c ≠ b) :
    (h'.place c).isCounted s'.pcs = (h.place c).isCounted s.pcs := by
  rw [hplace, Function.update_of_ne hcb]
  exact hi.isCounted_stay hpcs fun hc => absurd (hholds c hc) hcb

/-- A step that moves a block, which stays counted or not. -/
theorem Inv.countedBlocks_move (hi : Inv s h) (hcap : s'.capacity = s.capacity)
    (hpcs : s'.pcs = Function.update s.pcs t pc)
    {place : Place T} (hplace : h'.place = Function.update h.place b place)
    (hholds : ∀ c, (s.pcs t).holds? = some c → c = b)
    (hb : place.isCounted s'.pcs = (h.place b).isCounted s.pcs) :
    countedBlocks s' h' = countedBlocks s h := by
  refine countedBlocks_congr hcap fun c => ?_
  rcases eq_or_ne c b with rfl | hne
  · rw [hplace, Function.update_self, hb]
  · exact hi.isCounted_move hpcs hplace hholds hne

/-- **What a step of a thread counts.** -/
inductive Recounts (s : TaggedPool T) (h : History T) (s' : TaggedPool T) (h' : History T) (t : T) :
    Prop
  | keeps (blocks : countedBlocks s' h' = countedBlocks s h)
      (usage : s'.allocated_count_ = s.allocated_count_)
      (late : (s'.pcs t).isLate = (s.pcs t).isLate)
  /-- an allocation counts its block -/
  | adds (kind : Kind) (b : ℕ) (at_count : s.pcs t = .count kind b) (fresh : b ∉ countedBlocks s h)
      (blocks : countedBlocks s' h' = insert b (countedBlocks s h))
      (usage : s'.allocated_count_ = s.allocated_count_ + 1)
      (late : (s'.pcs t).isLate = (s.pcs t).isLate)
  /-- a deallocation puts its block on the list, -/
  | puts (b : ℕ) (counted : b ∈ countedBlocks s h)
      (blocks : countedBlocks s' h' = (countedBlocks s h).erase b)
      (usage : s'.allocated_count_ = s.allocated_count_)
      (before : (s.pcs t).isLate = false) (late : (s'.pcs t).isLate = true)
  /-- and subtracts it -/
  | subtracts (blocks : countedBlocks s' h' = countedBlocks s h)
      (usage : s'.allocated_count_ = s.allocated_count_ - 1)
      (before : (s.pcs t).isLate = true) (late : (s'.pcs t).isLate = false)

/-- A step within a call that moves no block and counts none. -/
theorem Inv.recounts_stay (hi : Inv s h) (hcap : s'.capacity = s.capacity)
    (hpcs : s'.pcs = Function.update s.pcs t pc) (hplace : h'.place = h.place)
    (hcounts : ∀ c, (s.pcs t).holds? = some c → pc.hasCounted = (s.pcs t).hasCounted)
    (husage : s'.allocated_count_ = s.allocated_count_) (hlate : pc.isLate = (s.pcs t).isLate) :
    Recounts s h s' h' t :=
  .keeps (hi.countedBlocks_stay hcap hpcs hplace hcounts) husage
    (by rw [hpcs, Function.update_self, hlate])

/-- An allocation counts its block. -/
theorem Inv.recounts_count (hi : Inv s h) {kind : Kind} (hpc : s.pcs t = .count kind b)
    (hcap : s'.capacity = s.capacity) (hpcs : s'.pcs = Function.update s.pcs t pc)
    (hplace : h'.place = h.place) (hcounted : pc.hasCounted = true) (hlate : pc.isLate = false)
    (husage : s'.allocated_count_ = s.allocated_count_ + 1) : Recounts s h s' h' t := by
  have hfits := hi.fits t
  rw [hpc] at hfits
  have hmine : h.place b = .allocating t := hfits.1
  have hlt : b < s.size := (hi.held b t (.inl hmine)).1
  have hsize : s'.size = s.size := congrArg QueueCapacity.capacity_ hcap
  refine .adds kind b hpc ?_ ?_ husage (by rw [hpcs, Function.update_self, hpc, hlate]; rfl)
  · rw [mem_countedBlocks, hmine, Place.isCounted, hpc]
    exact fun hin => absurd hin.2 (by simp [Pc.hasCounted])
  · ext c
    rw [Finset.mem_insert, mem_countedBlocks, mem_countedBlocks, hsize, hplace]
    rcases eq_or_ne c b with rfl | hne
    · rw [hmine, Place.isCounted, hpcs, Function.update_self]
      exact iff_of_true ⟨hlt, hcounted⟩ (.inl rfl)
    · have hholds : ∀ d, (s.pcs t).holds? = some d → d = b := by
        intro d hd
        rw [hpc] at hd
        exact (Option.some.inj hd).symm
      rw [hi.isCounted_stay hpcs fun hc => absurd (hholds c hc) hne, or_iff_right hne]

/-- A deallocation puts its block on the list. -/
theorem Inv.recounts_push (hi : Inv s h) {undo : Bool} {head : Head}
    (hpc : s.pcs t = .push undo b head) (hcap : s'.capacity = s.capacity)
    (hpcs : s'.pcs = Function.update s.pcs t (.uncount undo b))
    (hplace : h'.place = Function.update h.place b .free)
    (husage : s'.allocated_count_ = s.allocated_count_) : Recounts s h s' h' t := by
  have hfits := hi.fits t
  rw [hpc] at hfits
  have hmine : h.place b = .releasing t := hfits.1.1
  have hlt : b < s.size := (hi.held b t (.inr hmine)).1
  have hsize : s'.size = s.size := congrArg QueueCapacity.capacity_ hcap
  have hholds : ∀ c, (s.pcs t).holds? = some c → c = b := by
    intro c hc
    rw [hpc] at hc
    exact (Option.some.inj hc).symm
  refine .puts b ?_ ?_ husage (by rw [hpc]; rfl) (by rw [hpcs, Function.update_self]; rfl)
  · rw [mem_countedBlocks, hmine]
    exact ⟨hlt, rfl⟩
  · ext c
    rw [Finset.mem_erase, mem_countedBlocks, mem_countedBlocks, hsize]
    rcases eq_or_ne c b with rfl | hne
    · rw [hplace, Function.update_self]
      exact iff_of_false (fun hin => absurd hin.2 (by simp [Place.isCounted])) fun hin => hin.1 rfl
    · rw [hi.isCounted_move hpcs hplace hholds hne, and_iff_right hne]

/-- The mark of a block is cleared: it stays counted. -/
theorem Inv.recounts_unmark (hi : Inv s h) {undo : Bool} (hpc : s.pcs t = .exchange undo b)
    (hset : s.is_allocated b = true) (hpermitted : Permitted (s, h) (.step t spurious))
    (hcap : s'.capacity = s.capacity)
    (hpcs : s'.pcs = Function.update s.pcs t (.loadHead undo b))
    (hplace : h'.place = Function.update h.place b (.releasing t))
    (husage : s'.allocated_count_ = s.allocated_count_) : Recounts s h s' h' t := by
  obtain ⟨-, hmine⟩ := hi.marked hpc hset hpermitted
  refine .keeps (hi.countedBlocks_move hcap hpcs hplace (fun c hc => ?_) ?_) husage
    (by rw [hpcs, Function.update_self, hpc]; rfl)
  · rw [hpc] at hc
    cases undo with
    | false => cases hc
    | true => exact (Option.some.inj hc).symm
  · rcases hmine with hb | hb
    · rw [hb]
      rfl
    · rw [hb]
      change true = (s.pcs t).hasCounted
      rw [hpc]
      rfl

/-- A block is taken off the list: it is not counted yet. -/
theorem Inv.recounts_pop (hi : Inv s h) {kind : Kind} {head : Head} {next : ℕ}
    (hpc : s.pcs t = .pop kind head next) (hfree : h.place head.index = .free)
    (hcap : s'.capacity = s.capacity)
    (hpcs : s'.pcs = Function.update s.pcs t (.flag kind head.index))
    (hplace : h'.place = Function.update h.place head.index (.allocating t))
    (husage : s'.allocated_count_ = s.allocated_count_) : Recounts s h s' h' t := by
  refine .keeps (hi.countedBlocks_move hcap hpcs hplace (fun c hc => ?_) ?_) husage
    (by rw [hpcs, Function.update_self, hpc]; rfl)
  · rw [hpc] at hc
    cases hc
  · rw [hfree]
    change (s'.pcs t).hasCounted = false
    rw [hpcs, Function.update_self]
    rfl

omit [DecidableEq T] in
/-- The first block on the list is free. -/
theorem Inv.first_free (hi : Inv s h) (hnull : s.free_head_.index ≠ nullIndex) :
    h.place s.free_head_.index = .free := by
  obtain ⟨blocks, hlist⟩ := hi.lists
  obtain ⟨rest, rfl, -⟩ := hlist.linked.pop hnull
  exact ((hlist.mem_iff _).mp (List.mem_cons_self ..)).2

/-- A step within a call that only changes the place. -/
theorem Inv.recounts_goes (hi : Inv s h)
    (hmoves : moves s (s.goto t pc) (.step t spurious) = none)
    (hcounts : ∀ c, (s.pcs t).holds? = some c → pc.hasCounted = (s.pcs t).hasCounted)
    (hlate : pc.isLate = (s.pcs t).isLate) :
    Recounts s h (s.goto t pc) (record s (.step t spurious) (s.goto t pc) h) t :=
  hi.recounts_stay rfl rfl (place_record hmoves) hcounts rfl hlate

theorem isLate_loop (kind : Kind) (head : Head) : (loop kind head).isLate = false := by
  rw [loop]
  split_ifs <;> rfl

/-- **What the next step of a thread counts.** -/
theorem Inv.recounts (hi : Inv s h) (hpermitted : Permitted (s, h) (.step t spurious))
    (hstep : s.stepThread t spurious = some s') :
    Recounts s h s' (record s (.step t spurious) s' h) t := by
  have hfits := hi.fits t
  have hself (pc : Pc) : (s.goto t pc).pcs t = pc := Function.update_self ..
  rw [TaggedPool.stepThread] at hstep
  split at hstep
  · next kind hpc =>
    obtain ⟨⟩ := hstep
    exact hi.recounts_goes (moves_loop (hself _)) (fun c hc => by rw [hpc] at hc; cases hc)
      (by rw [isLate_loop, hpc]; rfl)
  · next kind head hpc =>
    obtain ⟨⟩ := hstep
    exact hi.recounts_goes (by rw [moves, hpc, hself])
      (fun c hc => by rw [hpc] at hc; cases hc) (by rw [hpc]; rfl)
  · next kind head next hpc =>
    rw [hpc] at hfits
    split_ifs at hstep with hhead
    · obtain ⟨⟩ := hstep
      have hfree := hi.first_free (hhead.1 ▸ hfits.2.1)
      rw [hhead.1] at hfree
      exact hi.recounts_pop hpc hfree rfl rfl
        (by simp [record, moves, hpc, TaggedPool.goto]) rfl
    · obtain ⟨⟩ := hstep
      exact hi.recounts_goes (moves_loop (hself _)) (fun c hc => by rw [hpc] at hc; cases hc)
        (by rw [isLate_loop, hpc]; rfl)
  · next kind b hpc =>
    obtain ⟨⟩ := hstep
    exact hi.recounts_stay rfl rfl (place_record (by rw [moves, hpc])) (fun _ _ => by rw [hpc]; rfl)
      rfl (by rw [hpc]; rfl)
  · next kind b hpc =>
    obtain ⟨⟩ := hstep
    cases kind with
    | raw => exact hi.recounts_count hpc rfl rfl (place_record (by rw [moves, hpc])) rfl rfl rfl
    | object throws =>
      exact hi.recounts_count hpc rfl rfl (place_record (by rw [moves, hpc])) rfl rfl rfl
  · next throws b hpc =>
    obtain ⟨⟩ := hstep
    cases throws with
    | true =>
      exact hi.recounts_goes (by rw [moves, hpc]) (fun _ _ => by rw [hpc]; rfl) (by rw [hpc]; rfl)
    | false =>
      exact hi.recounts_goes (by rw [moves, hpc]) (fun _ _ => by rw [hpc]; rfl) (by rw [hpc]; rfl)
  · next undo b hpc =>
    split_ifs at hstep with hset
    · obtain ⟨⟩ := hstep
      exact hi.recounts_unmark hpc hset hpermitted rfl rfl
        (by simp [record, moves, hpc, TaggedPool.goto]) rfl
    · obtain ⟨⟩ := hstep
      exact hi.recounts_goes (by rw [moves, hpc, hself]) (fun _ _ => by rw [hpc]; rfl)
        (by rw [hpc]; rfl)
  · next undo b hpc =>
    obtain ⟨⟩ := hstep
    exact hi.recounts_goes (by rw [moves, hpc]) (fun _ _ => by rw [hpc]; rfl) (by rw [hpc]; rfl)
  · next undo b head hpc =>
    obtain ⟨⟩ := hstep
    exact hi.recounts_stay rfl rfl (place_record (by rw [moves, hpc])) (fun _ _ => by rw [hpc]; rfl)
      rfl (by rw [hpc]; rfl)
  · next undo b head hpc =>
    split_ifs at hstep with hhead
    · obtain ⟨⟩ := hstep
      exact hi.recounts_push hpc rfl rfl (by simp [record, moves, hpc, TaggedPool.goto]) rfl
    · obtain ⟨⟩ := hstep
      exact hi.recounts_goes (by rw [moves, hpc, hself]) (fun _ _ => by rw [hpc]; rfl)
        (by rw [hpc]; rfl)
  · next undo b hpc =>
    obtain ⟨⟩ := hstep
    have hmoves : moves s { s.goto t (.deallocated undo true) with
        allocated_count_ := s.allocated_count_ - 1 } (.step t spurious) = none := by
      rw [moves, hpc]
    exact .subtracts (hi.countedBlocks_stay rfl rfl (place_record hmoves) fun _ _ => by rw [hpc]; rfl)
      rfl (by rw [hpc]; rfl) (congrArg Pc.isLate (hself (.deallocated undo true)))
  · cases hstep

/-- A step of a thread leaves the others where they are. -/
theorem stepThread_others (hstep : s.stepThread t spurious = some s') :
    s'.capacity = s.capacity ∧ ∀ u, u ≠ t → s'.pcs u = s.pcs u := by
  have hupdate (pc : Pc) (u : T) (hut : u ≠ t) : Function.update s.pcs t pc u = s.pcs u :=
    Function.update_of_ne hut ..
  rw [TaggedPool.stepThread] at hstep
  split at hstep
  case h_3 =>
    split_ifs at hstep <;> obtain rfl := Option.some.inj hstep <;> exact ⟨rfl, hupdate _⟩
  case h_7 =>
    split_ifs at hstep <;> obtain rfl := Option.some.inj hstep <;> exact ⟨rfl, hupdate _⟩
  case h_10 =>
    split_ifs at hstep <;> obtain rfl := Option.some.inj hstep <;> exact ⟨rfl, hupdate _⟩
  case h_12 => cases hstep
  all_goals
    obtain ⟨⟩ := hstep
    exact ⟨rfl, hupdate _⟩

/-- What a step that begins or ends a call, or gives a block away, leaves as it is. -/
structure Uncounted (s : TaggedPool T) (h : History T) (s' : TaggedPool T) (h' : History T) :
    Prop where
  capacity : s'.capacity = s.capacity
  blocks : countedBlocks s' h' = countedBlocks s h
  usage : s'.allocated_count_ = s.allocated_count_
  late : ∀ u, (s'.pcs u).isLate = (s.pcs u).isLate

theorem isLate_update (hpcs : s'.pcs = Function.update s.pcs t pc)
    (hlate : pc.isLate = (s.pcs t).isLate) (u : T) : (s'.pcs u).isLate = (s.pcs u).isLate := by
  rw [hpcs]
  rcases eq_or_ne u t with rfl | hne
  · rw [Function.update_self, hlate]
  · rw [Function.update_of_ne hne]

/-- A step that begins or ends a call, and moves no block. -/
theorem Inv.uncounted (hi : Inv s h) (hplace : h'.place = h.place)
    (hcounts : ∀ c, (s.pcs t).holds? = some c → pc.hasCounted = (s.pcs t).hasCounted)
    (hlate : pc.isLate = (s.pcs t).isLate) : Uncounted s h (s.goto t pc) h' where
  capacity := rfl
  blocks := hi.countedBlocks_stay rfl rfl hplace hcounts
  usage := rfl
  late := isLate_update rfl hlate

/-- A block is given to the thread `u`, by `allocate` or by its owner. -/
theorem Inv.uncounted_give (hi : Inv s h)
    (hplace : h'.place = Function.update h.place b (.owned u))
    (hholds : ∀ c, (s.pcs t).holds? = some c → c = b)
    (hcounted : (h.place b).isCounted s.pcs = true) (hlate : pc.isLate = (s.pcs t).isLate) :
    Uncounted s h (s.goto t pc) h' where
  capacity := rfl
  blocks := hi.countedBlocks_move rfl rfl hplace hholds (by rw [hcounted]; rfl)
  usage := rfl
  late := isLate_update rfl hlate

/-- **What begins or ends a call, or gives a block away, counts nothing.** -/
theorem Inv.uncounted_of_step (hi : Inv s h) {a : Label T} (hpermitted : Permitted (s, h) a)
    (hstep : s.step a = some s') (hnot : ∀ t spurious, a ≠ .step t spurious) :
    Uncounted s h s' (record s a s' h) := by
  cases a with
  | step t spurious => exact absurd rfl (hnot t spurious)
  | allocate t kind =>
    obtain ⟨hout, rfl⟩ := guarded hstep
    have hpc : s.pcs t = .out := Pc.eq_out hout
    exact hi.uncounted rfl (fun _ _ => by rw [hpc]; rfl) (by rw [hpc]; rfl)
  | deallocate t b =>
    obtain ⟨hout, rfl⟩ := guarded hstep
    have hpc : s.pcs t = .out := Pc.eq_out hout
    refine hi.uncounted rfl (fun c hc => ?_) (by rw [hpc]; split_ifs <;> rfl)
    rw [hpc] at hc
    cases hc
  | leave t =>
    have hfits := hi.fits t
    rw [TaggedPool.step] at hstep
    split at hstep
    · next b hpc =>
      obtain ⟨⟩ := hstep
      rw [hpc] at hfits
      cases b with
      | none =>
        exact hi.uncounted (place_record (by rw [moves, hpc])) (fun _ _ => by rw [hpc]; rfl)
          (by rw [hpc]; rfl)
      | some b =>
        refine hi.uncounted_give (b := b) (u := t) (by simp [record, moves, hpc]) (fun c hc => ?_) ?_
          (by rw [hpc]; rfl)
        · rw [hpc] at hc
          exact (Option.some.inj hc).symm
        · rw [hfits.1, Place.isCounted, hpc]
          rfl
    · next undo accepted hpc =>
      obtain ⟨⟩ := hstep
      exact hi.uncounted (place_record (by rw [moves, hpc])) (fun _ _ => by rw [hpc]; rfl)
        (by rw [hpc]; rfl)
    · cases hstep
  | hand b t u =>
    obtain ⟨hout, rfl⟩ := guarded hstep
    have hpc : s.pcs t = .out := Pc.eq_out hout
    have howned : h.place b = .owned t := by
      rw [Permitted, permits, beq_iff_eq] at hpermitted
      exact hpermitted
    have hsame : s.goto t .out = s := by
      rw [TaggedPool.goto, ← hpc, Function.update_eq_self]
    have hgive : Uncounted s h (s.goto t .out) (record s (.hand b t u) s h) := by
      refine hi.uncounted_give (b := b) (u := u) rfl (fun c hc => ?_) (by rw [howned]; rfl)
        (by rw [hpc])
      rw [hpc] at hc
      cases hc
    rw [hsame] at hgive
    exact hgive

/-! ### The usage -/

/-- **The usage** is the blocks that were counted and not put back, and those that were put back and
not subtracted. -/
structure Counts (p : (TaggedPool T × History T) × Finset T) : Prop where
  inv : Inv p.1.1 p.1.2
  late : ∀ t, t ∈ p.2 ↔ (p.1.1.pcs t).isLate = true
  usage : p.1.1.allocated_count_ = (countedBlocks p.1.1 p.1.2).card + p.2.card

variable {p q : (TaggedPool T × History T) × Finset T}

/-- What a permitted step is. -/
theorem permitted_step {a : Label T} (hstep : (permitted T).step p a = some q) :
    Permitted p.1 a ∧ p.1.1.step a = some q.1.1 ∧ q.1.2 = record p.1.1 a q.1.1 p.1.2 ∧
      q.2 = recordLate p.1 a q.1 p.2 := by
  obtain ⟨hpermitted, hcounting⟩ := Option.ite_none_right_eq_some.mp hstep
  obtain ⟨hobserved, hlate⟩ := Machine.withHistory_step.mp hcounting
  obtain ⟨hpool, hrecord⟩ := Machine.withHistory_step.mp hobserved
  exact ⟨hpermitted, hpool, hrecord.symm, hlate.symm⟩

/-- Who is about to subtract after a step. -/
theorem Counts.late_step (hp : Counts p) (hothers : ∀ u, u ≠ t → q.1.1.pcs u = p.1.1.pcs u)
    (hlate : q.2 = recordLate p.1 (.step t spurious) q.1 p.2) (u : T) :
    u ∈ q.2 ↔ (q.1.1.pcs u).isLate = true := by
  rw [hlate, recordLate]
  rcases eq_or_ne u t with rfl | hne
  · split_ifs with hlate
    · exact iff_of_true (Finset.mem_insert_self ..) hlate
    · exact iff_of_false (fun hmem => absurd rfl (Finset.ne_of_mem_erase hmem)) hlate
  · rw [hothers u hne, ← hp.late u]
    split_ifs
    · rw [Finset.mem_insert, or_iff_right hne]
    · rw [Finset.mem_erase, and_iff_right hne]

/-- Nobody else begins or ends to be about to subtract. -/
theorem Counts.late_same (hp : Counts p) (hsame : (q.1.1.pcs t).isLate = (p.1.1.pcs t).isLate)
    (hlate : q.2 = recordLate p.1 (.step t spurious) q.1 p.2) : q.2 = p.2 := by
  rw [hlate, recordLate, hsame]
  split_ifs with hin
  · exact Finset.insert_eq_of_mem ((hp.late t).mpr hin)
  · exact Finset.erase_eq_of_notMem fun hmem => hin ((hp.late t).mp hmem)

/-- **Every permitted step keeps the count.** -/
theorem Counts.step (hp : Counts p) {a : Label T} (hstep : (permitted T).step p a = some q) :
    Counts q := by
  obtain ⟨hpermitted, hpool, hrecord, hlate⟩ := permitted_step hstep
  have hinv : Inv q.1.1 q.1.2 := hrecord ▸ hp.inv.step hpermitted hpool
  have husage := hp.usage
  by_cases hthread : ∃ t spurious, a = .step t spurious
  · obtain ⟨t, spurious, rfl⟩ := hthread
    obtain ⟨-, hothers⟩ := stepThread_others hpool
    refine ⟨hinv, hp.late_step hothers hlate, ?_⟩
    have hrecounts := hp.inv.recounts hpermitted hpool
    rw [← hrecord] at hrecounts
    cases hrecounts with
    | keeps hblocks hcount hsame => rw [hblocks, hcount, hp.late_same hsame hlate, husage]
    | adds kind b hpc hfresh hblocks hcount hsame =>
      rw [hblocks, hcount, hp.late_same hsame hlate, husage, Finset.card_insert_of_notMem hfresh]
      omega
    | puts b hcounted hblocks hcount hbefore hafter =>
      have hfresh : t ∉ p.2 := fun hmem => by
        rw [hp.late t, hbefore] at hmem
        cases hmem
      have hpos := Finset.card_pos.mpr ⟨b, hcounted⟩
      rw [hlate, recordLate, if_pos hafter, Finset.card_insert_of_notMem hfresh, hblocks,
        Finset.card_erase_of_mem hcounted, hcount, husage]
      omega
    | subtracts hblocks hcount hbefore hafter =>
      have hmem : t ∈ p.2 := (hp.late t).mpr hbefore
      have hpos := Finset.card_pos.mpr ⟨t, hmem⟩
      rw [hlate, recordLate, if_neg (by rw [hafter]; simp), Finset.card_erase_of_mem hmem, hblocks,
        hcount, husage]
      omega
  · push Not at hthread
    have huncounted := hp.inv.uncounted_of_step hpermitted hpool hthread
    rw [← hrecord] at huncounted
    have hsame : q.2 = p.2 := by
      rw [hlate]
      cases a with
      | step t spurious => exact absurd rfl (hthread t spurious)
      | _ => rfl
    refine ⟨hinv, fun u => ?_, ?_⟩
    · rw [hsame, huncounted.late, hp.late]
    · rw [huncounted.blocks, huncounted.usage, hsame, husage]

/-- The step that counts a block. -/
theorem count_usage {kind : Kind} (hpc : s.pcs t = .count kind b)
    (hstep : s.stepThread t spurious = some s') :
    s'.allocated_count_ = s.allocated_count_ + 1 := by
  rw [TaggedPool.stepThread, hpc] at hstep
  obtain ⟨⟩ := hstep
  rfl

/-- **One step keeps the usage in range exactly if there is room.** -/
theorem usageInRange_iff_roomy (hp : Counts p) (husage : p.1.1.UsageInRange) {a : Label T}
    (hstep : (permitted T).step p a = some q) : q.1.1.UsageInRange ↔ Roomy p a := by
  obtain ⟨hpermitted, hpool, hrecord, -⟩ := permitted_step hstep
  rw [usageInRange_iff] at husage ⊢
  by_cases hthread : ∃ t spurious, a = .step t spurious
  · obtain ⟨t, spurious, rfl⟩ := hthread
    have hsize : q.1.1.size = p.1.1.size :=
      congrArg QueueCapacity.capacity_ (stepThread_others hpool).1
    rw [hsize]
    have hrecounts := hp.inv.recounts hpermitted hpool
    rw [← hrecord] at hrecounts
    by_cases hcount : ∃ kind b, p.1.1.pcs t = .count kind b
    · obtain ⟨kind, b, hpc⟩ := hcount
      rw [count_usage hpc hpool, hp.usage]
      constructor
      · intro hle _ _ _
        omega
      · intro hroomy
        have hlt := hroomy kind b hpc
        omega
    · refine iff_of_true ?_ fun kind b hpc => absurd ⟨kind, b, hpc⟩ hcount
      cases hrecounts with
      | keeps _ hsame _ => rwa [hsame]
      | adds kind b hpc _ _ _ _ => exact absurd ⟨kind, b, hpc⟩ hcount
      | puts _ _ _ hsame _ _ => rwa [hsame]
      | subtracts _ hless _ _ =>
        rw [hless]
        exact (Nat.sub_le ..).trans husage
  · push Not at hthread
    have huncounted := hp.inv.uncounted_of_step hpermitted hpool hthread
    have hsize : q.1.1.size = p.1.1.size :=
      congrArg QueueCapacity.capacity_ huncounted.capacity
    refine iff_of_true (by rw [hsize, huncounted.usage]; exact husage) ?_
    cases a with
    | step t spurious => exact absurd rfl (hthread t spurious)
    | _ => trivial

/-- The pool of this capacity as it is constructed. -/
def constructed (T : Type*) (c : QueueCapacity) : (TaggedPool T × History T) × Finset T :=
  (({ capacity := c, next := links c.capacity_ }, {}), ∅)

omit [DecidableEq T] in
theorem counts_constructed (c : QueueCapacity) : Counts (constructed T c) where
  inv := inv_init rfl
  late t := iff_of_false (Finset.notMem_empty t) (by simp [constructed, Pc.isLate])
  usage := by
    have hnone : countedBlocks (constructed T c).1.1 (constructed T c).1.2 = ∅ := by
      ext b
      rw [mem_countedBlocks]
      exact iff_of_false (fun hb => absurd hb.2 (by simp [constructed, Place.isCounted]))
        (Finset.notMem_empty b)
    rw [hnone]
    rfl

/-- **A run keeps the usage in range** exactly if there is room whenever a block is counted. -/
theorem always_usageInRange_iff (c : QueueCapacity) (as : List (Label T)) :
    (permitted T).Always (fun p => p.1.1.UsageInRange) (constructed T c) as ↔
      (permitted T).Allowed Roomy (constructed T c) as :=
  Machine.always_iff_allowed (I := Counts) (fun _ _ _ hI _ hstep => hI.step hstep)
    (fun _ _ _ hI hP hstep => usageInRange_iff_roomy hI hP hstep) (counts_constructed c)
    ((usageInRange_iff _).mpr (Nat.zero_le _)) as

end TaggedPool

/-- **The sizes stay in range** in a run of the queue with its observers exactly if every observer is
in time; and the usage of a pool, in a run of callers that keep to the rules, exactly if there is room
whenever an allocation counts its block. -/
theorem sizes_in_range_iff (T R O : Type*) [DecidableEq T] [DecidableEq O] (c : QueueCapacity) :
    (∀ as, (ThreadSafeQueue.sized T R O c).Always (ThreadSafeQueue.SizesInRange c)
        (ThreadSafeQueue.unobserved T R O c) as ↔
      (ThreadSafeQueue.sized T R O c).Allowed (ThreadSafeQueue.InTime c)
        (ThreadSafeQueue.unobserved T R O c) as) ∧
      ∀ as, (TaggedPool.permitted T).Always (fun p => p.1.1.UsageInRange)
          (TaggedPool.constructed T c) as ↔
        (TaggedPool.permitted T).Allowed TaggedPool.Roomy (TaggedPool.constructed T c) as :=
  ⟨ThreadSafeQueue.always_sizesInRange_iff c, TaggedPool.always_usageInRange_iff c⟩

/-- An observer loads `enqueue_pos_`; an item is queued and dequeued; the observer returns. -/
def heldUp : List (ThreadSafeQueue.SizeLabel ℕ ℕ ℕ) :=
  [.load 0, .queue (.enqueue 1 7)] ++ List.replicate 5 (.queue (.step 1 false)) ++
    [.queue (.leave 1), .queue (.dequeue 1)] ++ List.replicate 5 (.queue (.step 1 false)) ++
    [.subtract 0]

/-- All blocks are allocated; a thread puts one on the list, and another allocates it. -/
def countedTwice : List (TaggedPool.Label ℕ) :=
  (List.replicate 16 (TaggedPool.Label.allocate 0 .raw :: List.replicate 5 (.step 0 false) ++
      [.leave 0])).flatten ++
    .deallocate 0 0 :: List.replicate 4 (.step 0 false) ++
    .allocate 1 .raw :: List.replicate 5 (.step 1 false)

/-- **The observer gets `2⁶⁴ - 1`**, and of 16 blocks 17 are in use. -/
theorem sizes_out_of_range :
    (¬ ∀ p, (ThreadSafeQueue.sized ℕ ℕ ℕ ThreadSafeQueue.smallest).Reachable p →
      ThreadSafeQueue.SizesInRange ThreadSafeQueue.smallest p) ∧
    ¬ ∀ p, (TaggedPool.permitted ℕ).Reachable p → p.1.1.UsageInRange := by
  constructor
  · intro hall
    have hrun : ((ThreadSafeQueue.sized ℕ ℕ ℕ ThreadSafeQueue.smallest).exec
        (ThreadSafeQueue.unobserved ℕ ℕ ℕ ThreadSafeQueue.smallest) heldUp).any
        (fun p => p.2 0 == .returned 18446744073709551615) = true := by
      decide +kernel
    obtain ⟨p, hexec, hsize⟩ := (Option.any_eq_true _ _).mp hrun
    have hle := hall p (Machine.Reachable.exec (.init rfl) hexec) 0 _ (beq_iff_eq.mp hsize)
    exact absurd hle (by decide)
  · intro hall
    have hrun : ((TaggedPool.permitted ℕ).exec (TaggedPool.constructed ℕ ThreadSafeQueue.smallest)
        countedTwice).any (fun p => p.1.1.getUsage == 17 && p.1.1.size == 16) = true := by
      decide +kernel
    obtain ⟨p, hexec, hend⟩ := (Option.any_eq_true _ _).mp hrun
    obtain ⟨husage, hsize⟩ := (Bool.and_eq_true _ _).mp hend
    have hinit : (TaggedPool.permitted ℕ).init (TaggedPool.constructed ℕ ThreadSafeQueue.smallest) :=
      ⟨⟨rfl, rfl⟩, rfl⟩
    have hreach : (TaggedPool.permitted ℕ).Reachable p := Machine.Reachable.exec (.init hinit) hexec
    have hle := (hall p hreach).1
    rw [beq_iff_eq.mp husage, beq_iff_eq.mp hsize] at hle
    exact absurd hle (by decide)

end AxonVex
