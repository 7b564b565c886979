import AxonVex.Core.ThreadSafeQueue
import AxonVex.Machinery.LinkedBlocks

/-!
# Core/MemoryPool — blocks on a lock-free list with a tagged head

    allocate:    head ← free_head_;  next ← blocks_[head].next;  CAS free_head_: head → next;
                 is_allocated ← true
    deallocate:  CAS is_allocated: true → false;  head ← free_head_;  blocks_[b].next ← head;
                 CAS free_head_: head → b

Every line is several steps of any number of threads.  A `next` is read before the compare-and-
exchange that installs it: the block may have been taken off and pushed again between them, with
another `next`.  The tag in the head counts its changes, so that the exchange then fails, as long as
fewer than 2³² changes lie between (`pool_sound`).
-/

namespace AxonVex

open Machinery

namespace TaggedPool

/-- `NULL_INDEX`. -/
def nullIndex : ℕ := 0xFFFFFFFF

/-- `free_head_`: the tag and the index of the first block. -/
structure Head where
  tag : BitVec 32
  index : ℕ
  deriving DecidableEq, Repr

/-- What `allocate` is called for: by itself, or by `allocateObject`, whose constructor may throw. -/
inductive Kind
  | raw
  | object (throws : Bool)
  deriving DecidableEq, Repr

/-- Where a thread stands in the pool. -/
inductive Pc
  | out
  /-- about to load the head -/
  | load (kind : Kind)
  /-- about to load the next index of the first block -/
  | next (kind : Kind) (head : Head)
  /-- about to exchange the head -/
  | pop (kind : Kind) (head : Head) (next : ℕ)
  /-- about to set `is_allocated` -/
  | flag (kind : Kind) (b : ℕ)
  /-- about to add to `allocated_count_` -/
  | count (kind : Kind) (b : ℕ)
  /-- about to construct the object -/
  | construct (throws : Bool) (b : ℕ)
  /-- about to return -/
  | allocated (b : Option ℕ)
  /-- about to exchange `is_allocated`; `undo` in `allocateObject` after an exception -/
  | exchange (undo : Bool) (b : ℕ)
  | loadHead (undo : Bool) (b : ℕ)
  /-- about to store the next index -/
  | link (undo : Bool) (b : ℕ) (head : Head)
  /-- about to exchange the head -/
  | push (undo : Bool) (b : ℕ) (head : Head)
  | uncount (undo : Bool) (b : ℕ)
  | deallocated (undo : Bool) (accepted : Bool)
  deriving DecidableEq, Repr

def Pc.isOut : Pc → Bool
  | out => true
  | _ => false

theorem Pc.eq_out {pc : Pc} (h : pc.isOut = true) : pc = out := by
  cases pc with
  | out => rfl
  | _ => exact absurd h (by simp [isOut])

/-- The block that a call has taken off the list, or is about to put on it. -/
def Pc.holds? : Pc → Option ℕ
  | flag _ b => some b
  | count _ b => some b
  | construct _ b => some b
  | allocated b => b
  | exchange undo b => if undo then some b else none
  | loadHead _ b => some b
  | link _ b _ => some b
  | push _ b _ => some b
  | _ => none

end TaggedPool

/-- `MemoryPool<T>` without its statistics, and where the threads stand. -/
structure TaggedPool (T : Type*) where
  capacity : QueueCapacity
  /-- `blocks_[i].next` -/
  next : ℕ → ℕ
  is_allocated : ℕ → Bool := fun _ => false
  free_head_ : TaggedPool.Head := ⟨0, 0⟩
  allocated_count_ : ℕ := 0
  pcs : T → TaggedPool.Pc := fun _ => .out

namespace TaggedPool

variable {T : Type*} [DecidableEq T]

/-- `pool_size_`, a power of two within the bounds of a queue's capacity. -/
def size (s : TaggedPool T) : ℕ := s.capacity.capacity_

/-- The links that the constructor makes. -/
def links (size i : ℕ) : ℕ := if i + 1 < size then i + 1 else nullIndex

/-- The place of one thread changes. -/
def goto (s : TaggedPool T) (t : T) (pc : Pc) : TaggedPool T :=
  { s with pcs := Function.update s.pcs t pc }

/-- `while (headIndex(head) != NULL_INDEX)`, with a head that was just loaded. -/
def loop (kind : Kind) (head : Head) : Pc :=
  if head.index = nullIndex then .allocated none else .next kind head

/-- The next step of a thread; an exchange of the head may fail for no reason. -/
def stepThread (s : TaggedPool T) (t : T) (spurious : Bool) : Option (TaggedPool T) :=
  match s.pcs t with
  | .load kind => some (s.goto t (loop kind s.free_head_))
  | .next kind head => some (s.goto t (.pop kind head (s.next head.index)))
  | .pop kind head next =>
    if s.free_head_ = head ∧ spurious = false then
      some { s.goto t (.flag kind head.index) with free_head_ := ⟨head.tag + 1, next⟩ }
    else some (s.goto t (loop kind s.free_head_))
  | .flag kind b =>
    some { s.goto t (.count kind b) with is_allocated := Function.update s.is_allocated b true }
  | .count kind b =>
    some { s.goto t (match kind with
      | .raw => .allocated (some b)
      | .object throws => .construct throws b) with
      allocated_count_ := s.allocated_count_ + 1 }
  | .construct throws b =>
    some (s.goto t (if throws then .exchange true b else .allocated (some b)))
  | .exchange undo b =>
    if s.is_allocated b then
      some { s.goto t (.loadHead undo b) with
        is_allocated := Function.update s.is_allocated b false }
    else some (s.goto t (.deallocated undo false))
  | .loadHead undo b => some (s.goto t (.link undo b s.free_head_))
  | .link undo b head =>
    some { s.goto t (.push undo b head) with next := Function.update s.next b head.index }
  | .push undo b head =>
    if s.free_head_ = head ∧ spurious = false then
      some { s.goto t (.uncount undo b) with free_head_ := ⟨head.tag + 1, b⟩ }
    else some (s.goto t (.link undo b s.free_head_))
  | .uncount undo _ =>
    some { s.goto t (.deallocated undo true) with allocated_count_ := s.allocated_count_ - 1 }
  | _ => none

/-- A step of a run. -/
inductive Label (T : Type*)
  | allocate (t : T) (kind : Kind)
  /-- `deallocate` or `deallocateObject` with a pointer into the block `b` -/
  | deallocate (t : T) (b : ℕ)
  | step (t : T) (spurious : Bool)
  /-- the thread returns -/
  | leave (t : T)
  /-- the owner of a block gives it to another thread -/
  | hand (b : ℕ) (t u : T)
  deriving DecidableEq, Repr

/-- The step with this label. -/
def step (s : TaggedPool T) : Label T → Option (TaggedPool T)
  | .allocate t kind => if (s.pcs t).isOut then some (s.goto t (.load kind)) else none
  | .deallocate t b =>
    -- `isValidPointer`
    if (s.pcs t).isOut then
      some (s.goto t (if b < s.size then .exchange false b else .deallocated false false))
    else none
  | .step t spurious => s.stepThread t spurious
  | .leave t => match s.pcs t with
    | .allocated _ => some (s.goto t .out)
    | .deallocated _ _ => some (s.goto t .out)
    | _ => none
  | .hand _ t _ => if (s.pcs t).isOut then some s else none

/-- Pools of any capacity, from their construction on. -/
def pool (T : Type*) [DecidableEq T] : Machine (TaggedPool T) (Label T) where
  init s := s = { capacity := s.capacity, next := links s.size }
  step := step

/-! ## What happens in a run -/

/-- Who has a block. -/
inductive Place (T : Type*)
  /-- nobody: it is on the list -/
  | free
  /-- a call of `allocate` that has not returned -/
  | allocating (t : T)
  | owned (t : T)
  /-- a call of `deallocate` that has not put it on the list -/
  | releasing (t : T)
  deriving DecidableEq, Repr

/-- The run so far. -/
structure History (T : Type*) where
  place : ℕ → Place T := fun _ => .free
  /-- how often the head was changed, -/
  updates : ℕ := 0
  /-- and how often when a thread loaded it last -/
  seen : T → ℕ := fun _ => 0
  /-- during the last `allocate` of a thread, nothing was on the list -/
  wasEmpty : T → Bool := fun _ => false

/-- A block changes hands. -/
def moves (s : TaggedPool T) (s' : TaggedPool T) : Label T → Option (ℕ × Place T)
  | .step t _ => match s.pcs t, s'.pcs t with
    | .pop _ _ _, .flag _ b => some (b, .allocating t)
    | .exchange _ _, .loadHead _ b => some (b, .releasing t)
    | .push _ _ _, .uncount _ b => some (b, .free)
    | _, _ => none
  | .leave t => match s.pcs t with
    | .allocated (some b) => some (b, .owned t)
    | _ => none
  | .hand b _ u => some (b, .owned u)
  | _ => none

/-- The step loads the head. -/
def loads (s : TaggedPool T) : Label T → Option T
  | .step t _ => match s.pcs t with
    | .load _ => some t
    | .pop _ _ _ => some t
    | .loadHead _ _ => some t
    | .push _ _ _ => some t
    | _ => none
  | _ => none

/-- The thread begins an `allocate`. -/
def begins (t : T) : Label T → Bool
  | .allocate u _ => u == t
  | _ => false

/-- What a step adds to the run. -/
def record (s : TaggedPool T) (a : Label T) (s' : TaggedPool T) (h : History T) : History T where
  place := match moves s s' a with
    | some m => Function.update h.place m.1 m.2
    | none => h.place
  updates := if s'.free_head_ = s.free_head_ then h.updates else h.updates + 1
  seen := match loads s a with
    | some t => Function.update h.seen t h.updates
    | none => h.seen
  wasEmpty t := (!begins t a && h.wasEmpty t) || decide (s'.free_head_.index = nullIndex)

/-- The pool, with the run so far. -/
def observed (T : Type*) [DecidableEq T] : Machine (TaggedPool T × History T) (Label T) :=
  (pool T).withHistory {} record

/-- The thread may deallocate the block: it is its owner, or the block has been deallocated and not
allocated again. -/
def Place.mayRelease (t : T) : Place T → Bool
  | free => true
  | allocating _ => false
  | owned u => u == t
  | releasing _ => true

/-- What the callers keep to: a block is deallocated by its owner, or once more while it has not been
allocated again; a block is given away by its owner; and fewer than 2³² changes of the head lie
between a load of it and the exchange that takes its block off. -/
def permits (p : TaggedPool T × History T) : Label T → Bool
  | .step t _ => match p.1.pcs t with
    | .exchange false b => (p.2.place b).mayRelease t
    | .pop _ _ _ => decide (p.2.updates - p.2.seen t < 4294967296)
    | _ => true
  | .hand b t _ => p.2.place b == .owned t
  | _ => true

abbrev Permitted (p : TaggedPool T × History T) (a : Label T) : Prop := permits p a = true

/-! ## The invariant of a run -/

variable {s s' : TaggedPool T} {h h' : History T} {t u : T} {b : ℕ}

/-- The head that a thread has loaded, if it has not changed since. -/
structure Seen (s : TaggedPool T) (h : History T) (t : T) (head : Head) : Prop where
  le : h.seen t ≤ h.updates
  tag : head.tag = BitVec.ofNat 32 (h.seen t)
  same : h.seen t = h.updates → head = s.free_head_

/-- What the place of the thread `t` says. -/
def Fits (s : TaggedPool T) (h : History T) (t : T) : Pc → Prop
  | .next _ head => Seen s h t head ∧ head.index ≠ nullIndex
  | .pop _ head next => Seen s h t head ∧ head.index ≠ nullIndex ∧
      (h.seen t = h.updates → next = s.next head.index)
  | .flag _ b => h.place b = .allocating t ∧ s.is_allocated b = false
  | .count _ b => h.place b = .allocating t ∧ s.is_allocated b = true
  | .construct _ b => h.place b = .allocating t ∧ s.is_allocated b = true
  | .allocated (some b) => h.place b = .allocating t ∧ s.is_allocated b = true
  | .allocated none => h.wasEmpty t = true
  | .exchange true b => h.place b = .allocating t ∧ s.is_allocated b = true
  | .exchange false b => b < s.size
  | .loadHead _ b => h.place b = .releasing t ∧ s.is_allocated b = false
  | .link _ b _ => h.place b = .releasing t ∧ s.is_allocated b = false
  | .push _ b head => (h.place b = .releasing t ∧ s.is_allocated b = false) ∧ s.next b = head.index
  | _ => True

/-- **The list** of the blocks that nobody has. -/
structure Lists (s : TaggedPool T) (h : History T) (blocks : List ℕ) : Prop where
  linked : Linked nullIndex s.next s.free_head_.index blocks
  nodup : blocks.Nodup
  mem_iff : ∀ b, b ∈ blocks ↔ b < s.size ∧ h.place b = .free

/-- **The invariant of a run.** -/
structure Inv (s : TaggedPool T) (h : History T) : Prop where
  tag : s.free_head_.tag = BitVec.ofNat 32 h.updates
  lists : ∃ blocks, Lists s h blocks
  fits : ∀ t, Fits s h t (s.pcs t)
  /-- a call that has a block holds it -/
  held : ∀ b t, h.place b = .allocating t ∨ h.place b = .releasing t →
    b < s.size ∧ (s.pcs t).holds? = some b
  owned : ∀ b t, h.place b = .owned t → b < s.size ∧ s.is_allocated b = true
  free : ∀ b, b < s.size → h.place b = .free → s.is_allocated b = false

omit [DecidableEq T] in
theorem size_lt_null (s : TaggedPool T) : s.size < nullIndex :=
  s.capacity.atMost.trans_lt (by decide)

/-- What a step of the thread `t` leaves to the others. -/
structure Turn (s : TaggedPool T) (h : History T) (s' : TaggedPool T) (h' : History T) (t : T)
    (pc : Pc) : Prop where
  pcs : s'.pcs = Function.update s.pcs t pc
  capacity : s'.capacity = s.capacity
  seen : ∀ u, u ≠ t → h'.seen u = h.seen u
  le : h.updates ≤ h'.updates
  head : h'.updates = h.updates → s'.free_head_ = s.free_head_
  empty : ∀ u, u ≠ t → h.wasEmpty u = true → h'.wasEmpty u = true

theorem Turn.size (ht : Turn s h s' h' t pc) : s'.size = s.size :=
  congrArg QueueCapacity.capacity_ ht.capacity

theorem Seen.turn (ht : Turn s h s' h' t pc) (hut : u ≠ t) {head : Head}
    (hseen : Seen s h u head) : Seen s' h' u head where
  le := (ht.seen u hut ▸ hseen.le).trans ht.le
  tag := (ht.seen u hut).symm ▸ hseen.tag
  same hupdates := by
    have hle := hseen.le
    have hold : h.seen u = h'.updates := (ht.seen u hut).symm.trans hupdates
    have hlast := ht.le
    rw [hseen.same (by omega), ht.head (by omega)]

/-- The place of another thread still fits: it says something of its own block only. -/
theorem Inv.fits_of_ne (hi : Inv s h) (ht : Turn s h s' h' t pc) (hut : u ≠ t)
    (hown : ∀ b, h.place b = .allocating u ∨ h.place b = .releasing u →
      h'.place b = h.place b ∧ s'.is_allocated b = s.is_allocated b ∧ s'.next b = s.next b)
    (hfree : ∀ b, h.place b = .free → s'.next b = s.next b) :
    Fits s' h' u (s'.pcs u) := by
  have hfits := hi.fits u
  rw [ht.pcs, Function.update_of_ne hut]
  revert hfits
  generalize s.pcs u = pc
  intro hfits
  cases pc with
  | next kind head => exact ⟨hfits.1.turn ht hut, hfits.2⟩
  | pop kind head next =>
    obtain ⟨hseen, hnull, hnext⟩ := hfits
    refine ⟨hseen.turn ht hut, hnull, fun hupdates => ?_⟩
    have hle := hseen.le
    have hlast := ht.le
    rw [ht.seen u hut] at hupdates
    have hsame : h.seen u = h.updates := by omega
    rw [hnext hsame]
    -- the head is on the list still
    obtain ⟨blocks, hlist⟩ := hi.lists
    rw [hseen.same hsame] at hnull ⊢
    obtain ⟨rest, rfl, -⟩ := hlist.linked.pop hnull
    exact (hfree _ ((hlist.mem_iff _).mp (List.mem_cons_self ..)).2).symm
  | flag kind b =>
    obtain ⟨hplace, hflag, -⟩ := hown b (.inl hfits.1)
    exact ⟨hplace.trans hfits.1, hflag.trans hfits.2⟩
  | count kind b =>
    obtain ⟨hplace, hflag, -⟩ := hown b (.inl hfits.1)
    exact ⟨hplace.trans hfits.1, hflag.trans hfits.2⟩
  | construct throws b =>
    obtain ⟨hplace, hflag, -⟩ := hown b (.inl hfits.1)
    exact ⟨hplace.trans hfits.1, hflag.trans hfits.2⟩
  | allocated b =>
    cases b with
    | none => exact ht.empty u hut hfits
    | some b =>
      obtain ⟨hplace, hflag, -⟩ := hown b (.inl hfits.1)
      exact ⟨hplace.trans hfits.1, hflag.trans hfits.2⟩
  | exchange undo b =>
    cases undo with
    | false =>
      change b < s'.size
      rw [ht.size]
      exact hfits
    | true =>
      obtain ⟨hplace, hflag, -⟩ := hown b (.inl hfits.1)
      exact ⟨hplace.trans hfits.1, hflag.trans hfits.2⟩
  | loadHead undo b =>
    obtain ⟨hplace, hflag, -⟩ := hown b (.inr hfits.1)
    exact ⟨hplace.trans hfits.1, hflag.trans hfits.2⟩
  | link undo b head =>
    obtain ⟨hplace, hflag, -⟩ := hown b (.inr hfits.1)
    exact ⟨hplace.trans hfits.1, hflag.trans hfits.2⟩
  | push undo b head =>
    obtain ⟨hplace, hflag, hnext⟩ := hown b (.inr hfits.1.1)
    exact ⟨⟨hplace.trans hfits.1.1, hflag.trans hfits.1.2⟩, hnext.trans hfits.2⟩
  | _ => trivial

/-- A step that leaves every block where it is. -/
theorem Inv.stay (hi : Inv s h) (ht : Turn s h s' h' t pc) (hplace : h'.place = h.place)
    (hupdates : h'.updates = h.updates) (hholds : pc.holds? = (s.pcs t).holds?)
    (hflag : ∀ b, h.place b ≠ .allocating t → s'.is_allocated b = s.is_allocated b)
    (hnext : ∀ b, h.place b ≠ .releasing t → s'.next b = s.next b)
    (hpc : Fits s' h' t pc) : Inv s' h' where
  tag := by rw [ht.head hupdates, hupdates, hi.tag]
  lists := by
    obtain ⟨blocks, hlist⟩ := hi.lists
    refine ⟨blocks, ?_, hlist.nodup, fun b => ?_⟩
    · rw [ht.head hupdates]
      refine hlist.linked.congr fun b hb => hnext b ?_
      rw [((hlist.mem_iff b).mp hb).2]
      simp
    · rw [hplace, ht.size]
      exact hlist.mem_iff b
  fits u := by
    by_cases hut : u = t
    · subst hut
      rw [ht.pcs, Function.update_self]
      exact hpc
    · refine hi.fits_of_ne ht hut (fun b hb => ?_) fun b hb => hnext b (by simp [hb])
      have hne : h.place b ≠ .allocating t ∧ h.place b ≠ .releasing t := by
        rcases hb with hb | hb <;> simp [hb, hut]
      exact ⟨congrFun hplace b, hflag b hne.1, hnext b hne.2⟩
  held b u hb := by
    rw [hplace] at hb
    obtain ⟨hlt, hold⟩ := hi.held b u hb
    refine ⟨ht.size.symm ▸ hlt, ?_⟩
    rw [ht.pcs]
    by_cases hut : u = t
    · subst hut
      rw [Function.update_self, hholds]
      exact hold
    · rw [Function.update_of_ne hut]
      exact hold
  owned b u hb := by
    rw [hplace] at hb
    obtain ⟨hlt, hset⟩ := hi.owned b u hb
    exact ⟨ht.size.symm ▸ hlt, (hflag b (by simp [hb])).trans hset⟩
  free b hlt hb := by
    rw [hplace] at hb
    exact (hflag b (by simp [hb])).trans (hi.free b (ht.size ▸ hlt) hb)

/-- What the place `place` of the block `b` asks for, after a step of `t`. -/
def Settles (s : TaggedPool T) (b : ℕ) (t : T) (pc : Pc) : Place T → Prop
  | .free => s.is_allocated b = false
  | .allocating u => u = t ∧ pc.holds? = some b
  | .owned _ => s.is_allocated b = true
  | .releasing u => u = t ∧ pc.holds? = some b

/-- A step with which the block `b` changes hands. -/
theorem Inv.move (hi : Inv s h) (ht : Turn s h s' h' t pc) {place : Place T}
    (hplace : h'.place = Function.update h.place b place) (hlt : b < s.size)
    (htag : s'.free_head_.tag = BitVec.ofNat 32 h'.updates) (hlists : ∃ blocks, Lists s' h' blocks)
    (hothers : ∀ u, u ≠ t → h.place b ≠ .allocating u ∧ h.place b ≠ .releasing u)
    (hholds : ∀ c, (s.pcs t).holds? = some c → c = b)
    (hflag : ∀ c, c ≠ b → s'.is_allocated c = s.is_allocated c) (hnext : s'.next = s.next)
    (hsettles : Settles s' b t pc place) (hpc : Fits s' h' t pc) : Inv s' h' where
  tag := htag
  lists := hlists
  fits u := by
    by_cases hut : u = t
    · subst hut
      rw [ht.pcs, Function.update_self]
      exact hpc
    · refine hi.fits_of_ne ht hut (fun c hc => ?_) fun c _ => congrFun hnext c
      have hne : c ≠ b := by
        rintro rfl
        exact hc.elim (hothers u hut).1 (hothers u hut).2
      exact ⟨by rw [hplace, Function.update_of_ne hne], hflag c hne, congrFun hnext c⟩
  held c u hc := by
    rw [hplace] at hc
    rw [ht.size, ht.pcs]
    by_cases hcb : c = b
    · subst hcb
      rw [Function.update_self] at hc
      refine ⟨hlt, ?_⟩
      rcases hc with rfl | rfl
      · obtain ⟨rfl, hpc⟩ := hsettles
        rwa [Function.update_self]
      · obtain ⟨rfl, hpc⟩ := hsettles
        rwa [Function.update_self]
    · rw [Function.update_of_ne hcb] at hc
      obtain ⟨hclt, hold⟩ := hi.held c u hc
      have hut : u ≠ t := by
        rintro rfl
        exact hcb (hholds c hold)
      rw [Function.update_of_ne hut]
      exact ⟨hclt, hold⟩
  owned c u hc := by
    rw [hplace] at hc
    rw [ht.size]
    by_cases hcb : c = b
    · subst hcb
      rw [Function.update_self] at hc
      subst hc
      exact ⟨hlt, hsettles⟩
    · rw [Function.update_of_ne hcb] at hc
      rw [hflag c hcb]
      exact hi.owned c u hc
  free c hclt hc := by
    rw [hplace] at hc
    by_cases hcb : c = b
    · subst hcb
      rw [Function.update_self] at hc
      subst hc
      exact hsettles
    · rw [Function.update_of_ne hcb] at hc
      rw [hflag c hcb]
      exact hi.free c (ht.size ▸ hclt) hc

/-! ## Steps -/

variable {pc : Pc} {spurious : Bool}

/-- The head changes at most once in a step. -/
theorem updates_le (a : Label T) : h.updates ≤ (record s a s' h).updates := by
  rw [record]
  split_ifs
  · exact le_rfl
  · exact Nat.le_succ _

theorem head_of_updates {a : Label T} (hsame : (record s a s' h).updates = h.updates) :
    s'.free_head_ = s.free_head_ := by
  by_contra hne
  rw [record] at hsame
  simp only [hne, if_false] at hsame
  omega

theorem wasEmpty_record {a : Label T} (hbegins : begins u a = false) (hu : h.wasEmpty u = true) :
    (record s a s' h).wasEmpty u = true := by
  simp [record, hbegins, hu]

theorem seen_record (hut : u ≠ t) :
    (record s (.step t spurious) s' h).seen u = h.seen u := by
  simp only [record, loads]
  cases s.pcs t <;> first | rfl | exact Function.update_of_ne hut ..

/-- A step within a call. -/
theorem turn_step (hpcs : s'.pcs = Function.update s.pcs t pc) (hcap : s'.capacity = s.capacity) :
    Turn s h s' (record s (.step t spurious) s' h) t pc where
  pcs := hpcs
  capacity := hcap
  seen _ hut := seen_record hut
  le := updates_le _
  head := head_of_updates
  empty _ _ := wasEmpty_record rfl

/-- The head has been loaded: it is seen, or nothing is on the list. -/
theorem fits_loop (hi : Inv s h) {kind : Kind} (hloads : loads s (.step t spurious) = some t)
    (hhead : s'.free_head_ = s.free_head_) :
    Fits s' (record s (.step t spurious) s' h) t (loop kind s.free_head_) := by
  have hupdates : (record s (.step t spurious) s' h).updates = h.updates := by
    simp [record, hhead]
  have hseen : (record s (.step t spurious) s' h).seen t = h.updates := by
    simp [record, hloads]
  rw [loop]
  split_ifs with hnull
  · change (record s (.step t spurious) s' h).wasEmpty t = true
    simp [record, hhead, hnull]
  · refine ⟨⟨hseen.trans_le hupdates.ge, ?_, fun _ => hhead.symm⟩, hnull⟩
    rw [hseen, hi.tag]

omit [DecidableEq T] in
/-- **A head with the tag that was seen has not changed**, within 2³² changes. -/
theorem Inv.seen_eq (hi : Inv s h) {head : Head} (hseen : Seen s h t head)
    (hhead : s.free_head_ = head) (hnear : h.updates - h.seen t < 4294967296) :
    h.seen t = h.updates := by
  have htag : BitVec.ofNat 32 h.updates = BitVec.ofNat 32 (h.seen t) := by
    rw [← hi.tag, hhead, hseen.tag]
  have hle := hseen.le
  have hmod := congrArg BitVec.toNat htag
  rw [BitVec.toNat_ofNat, BitVec.toNat_ofNat] at hmod
  omega

/-- A block is taken off the list. -/
theorem Inv.pop (hi : Inv s h) {kind : Kind} {head : Head} {next : ℕ}
    (hpc : s.pcs t = .pop kind head next) (hhead : s.free_head_ = head)
    (hnear : h.updates - h.seen t < 4294967296)
    (hs' : s' = { s.goto t (.flag kind head.index) with free_head_ := ⟨head.tag + 1, next⟩ }) :
    Inv s' (record s (.step t spurious) s' h) := by
  have hfits := hi.fits t
  rw [hpc] at hfits
  obtain ⟨hseen, hnull, hnext⟩ := hfits
  have hnext := hnext (hi.seen_eq hseen hhead hnear)
  have hpcs : s'.pcs = Function.update s.pcs t (.flag kind head.index) := by rw [hs']; rfl
  have hself : s'.pcs t = .flag kind head.index := by rw [hpcs, Function.update_self]
  have hne : s'.free_head_ ≠ s.free_head_ := by
    rw [hhead, hs']
    intro hsame
    have htag := congrArg Head.tag hsame
    simp at htag
  have hupdates : (record s (.step t spurious) s' h).updates = h.updates + 1 := by
    simp [record, hne]
  have hplace : (record s (.step t spurious) s' h).place =
      Function.update h.place head.index (.allocating t) := by
    simp [record, moves, hpc, hself]
  obtain ⟨blocks, hlist⟩ := hi.lists
  rw [← hhead] at hnull
  obtain ⟨rest, rfl, hrest⟩ := hlist.linked.pop hnull
  rw [hhead] at hrest hlist hnull
  obtain ⟨hlt, hfree⟩ := (hlist.mem_iff head.index).mp (List.mem_cons_self ..)
  have hflag := hi.free _ hlt hfree
  have hfresh := (List.nodup_cons.mp hlist.nodup).1
  refine hi.move (turn_step hpcs (by rw [hs']; rfl)) hplace hlt ?_ ⟨rest, ?_, ?_, ?_⟩ ?_ ?_ ?_ ?_
    ⟨rfl, rfl⟩ ?_
  · rw [hupdates, hs', BitVec.ofNat_add, ← hi.tag, hhead]
    rfl
  · rw [hs', hnext]
    exact hrest
  · exact (List.nodup_cons.mp hlist.nodup).2
  · intro b
    have hmem := hlist.mem_iff b
    rw [hplace, hs']
    by_cases hb : b = head.index
    · subst hb
      rw [Function.update_self]
      exact ⟨fun hin => absurd hin hfresh, fun hin => by cases hin.2⟩
    · rw [Function.update_of_ne hb]
      rw [List.mem_cons, or_iff_right hb] at hmem
      exact hmem
  · intro u _
    simp [hfree]
  · intro c hc
    rw [hpc] at hc
    cases hc
  · intro c _
    rw [hs']
    rfl
  · rw [hs']
    rfl
  · refine ⟨by rw [hplace, Function.update_self], ?_⟩
    rw [hs']
    exact hflag

omit [DecidableEq T] in
/-- A block that is not on the list changes hands. -/
theorem Lists.keep {blocks : List ℕ} (hlist : Lists s h blocks) {place : Place T}
    (hnext : s'.next = s.next) (hhead : s'.free_head_ = s.free_head_)
    (hcap : s'.capacity = s.capacity) (hplace : h'.place = Function.update h.place b place)
    (hold : h.place b ≠ .free) (hnew : place ≠ .free) : Lists s' h' blocks := by
  refine ⟨?_, hlist.nodup, fun c => ?_⟩
  · rw [hnext, hhead]
    exact hlist.linked
  · have hsize : s'.size = s.size := congrArg QueueCapacity.capacity_ hcap
    rw [hplace, hsize, hlist.mem_iff c]
    by_cases hc : c = b
    · subst hc
      simp [hold, hnew]
    · rw [Function.update_of_ne hc]

omit [DecidableEq T] in
/-- A block that is being put on the list is not allocated. -/
theorem Inv.releasing (hi : Inv s h) (hb : h.place b = .releasing u) :
    s.is_allocated b = false := by
  obtain ⟨-, hholds⟩ := hi.held b u (.inr hb)
  have hfits := hi.fits u
  revert hholds hfits
  generalize s.pcs u = pc
  intro hholds hfits
  cases pc with
  | flag kind c =>
    obtain ⟨⟩ := hholds
    exact hfits.2
  | count kind c =>
    obtain ⟨⟩ := hholds
    exact absurd (hfits.1.symm.trans hb) (by simp)
  | construct throws c =>
    obtain ⟨⟩ := hholds
    exact absurd (hfits.1.symm.trans hb) (by simp)
  | allocated c =>
    obtain rfl : c = some b := hholds
    exact absurd (hfits.1.symm.trans hb) (by simp)
  | exchange undo c =>
    cases undo with
    | false => cases hholds
    | true =>
      obtain ⟨⟩ := hholds
      exact absurd (hfits.1.symm.trans hb) (by simp)
  | loadHead undo c =>
    obtain ⟨⟩ := hholds
    exact hfits.2
  | link undo c head =>
    obtain ⟨⟩ := hholds
    exact hfits.2
  | push undo c head =>
    obtain ⟨⟩ := hholds
    exact hfits.1.2
  | _ => cases hholds

/-- **A block that has not been allocated again** is not marked, unless its owner deallocates it. -/
theorem Inv.unmarked (hi : Inv s h) (hlt : b < s.size) (hmay : (h.place b).mayRelease t = true)
    (hnot : h.place b ≠ .owned t) : s.is_allocated b = false := by
  cases hb : h.place b with
  | free => exact hi.free b hlt hb
  | releasing u => exact hi.releasing hb
  | allocating u =>
    rw [hb] at hmay
    cases hmay
  | owned u =>
    rw [hb, Place.mayRelease, beq_iff_eq] at hmay
    exact absurd (hb.trans (by rw [hmay])) hnot

/-- A marked block that a thread deallocates is its own. -/
theorem Inv.marked (hi : Inv s h) {undo : Bool} (hpc : s.pcs t = .exchange undo b)
    (hset : s.is_allocated b = true) (hpermitted : Permitted (s, h) (.step t spurious)) :
    b < s.size ∧ (h.place b = .owned t ∨ h.place b = .allocating t) := by
  have hfits := hi.fits t
  rw [hpc] at hfits
  cases undo with
  | true => exact ⟨(hi.held b t (.inl hfits.1)).1, .inr hfits.1⟩
  | false =>
    have hmay : (h.place b).mayRelease t = true := by
      rw [Permitted, permits] at hpermitted
      simpa only [hpc] using hpermitted
    refine ⟨hfits, .inl (by_contra fun hnot => ?_)⟩
    exact absurd (hset.symm.trans (hi.unmarked hfits hmay hnot)) (by simp)

/-- The mark of a block is cleared: its thread has had it. -/
theorem Inv.unmark (hi : Inv s h) {undo : Bool} (hpc : s.pcs t = .exchange undo b)
    (hset : s.is_allocated b = true)
    (hpermitted : Permitted (s, h) (.step t spurious))
    (hs' : s' = { s.goto t (.loadHead undo b) with
      is_allocated := Function.update s.is_allocated b false }) :
    Inv s' (record s (.step t spurious) s' h) := by
  obtain ⟨hlt, hmine⟩ := hi.marked hpc hset hpermitted
  have hpcs : s'.pcs = Function.update s.pcs t (.loadHead undo b) := by rw [hs']; rfl
  have hself : s'.pcs t = .loadHead undo b := by rw [hpcs, Function.update_self]
  have hplace : (record s (.step t spurious) s' h).place =
      Function.update h.place b (.releasing t) := by
    simp [record, moves, hpc, hself]
  have hhead : s'.free_head_ = s.free_head_ := by rw [hs']; rfl
  have hnext : s'.next = s.next := by rw [hs']; rfl
  have hcap : s'.capacity = s.capacity := by rw [hs']; rfl
  have hupdates : (record s (.step t spurious) s' h).updates = h.updates := by
    simp [record, hhead]
  obtain ⟨blocks, hlist⟩ := hi.lists
  have hold : h.place b ≠ .free := by
    rcases hmine with hb | hb <;> simp [hb]
  refine hi.move (turn_step hpcs hcap) hplace hlt (by rw [hupdates, hhead, hi.tag])
    ⟨blocks, hlist.keep hnext hhead hcap hplace hold (by simp)⟩ (fun u hut => ?_) (fun c hc => ?_)
    (fun c hc => ?_) hnext ⟨rfl, rfl⟩ ⟨by rw [hplace, Function.update_self], ?_⟩
  · rcases hmine with hb | hb <;> simp [hb, Ne.symm hut]
  · rw [hpc] at hc
    cases undo with
    | false => cases hc
    | true => exact (Option.some.inj hc).symm
  · rw [hs']
    exact Function.update_of_ne hc ..
  · rw [hs']
    exact Function.update_self ..

/-- A block is put on the list. -/
theorem Inv.push (hi : Inv s h) {undo : Bool} {head : Head} (hpc : s.pcs t = .push undo b head)
    (hhead : s.free_head_ = head)
    (hs' : s' = { s.goto t (.uncount undo b) with free_head_ := ⟨head.tag + 1, b⟩ }) :
    Inv s' (record s (.step t spurious) s' h) := by
  have hfits := hi.fits t
  rw [hpc] at hfits
  obtain ⟨⟨hreleasing, hflag⟩, hnext⟩ := hfits
  obtain ⟨hlt, -⟩ := hi.held b t (.inr hreleasing)
  have hpcs : s'.pcs = Function.update s.pcs t (.uncount undo b) := by rw [hs']; rfl
  have hself : s'.pcs t = .uncount undo b := by rw [hpcs, Function.update_self]
  have hne : s'.free_head_ ≠ s.free_head_ := by
    rw [hhead, hs']
    intro hsame
    have htag := congrArg Head.tag hsame
    simp at htag
  have hupdates : (record s (.step t spurious) s' h).updates = h.updates + 1 := by
    simp [record, hne]
  have hplace : (record s (.step t spurious) s' h).place = Function.update h.place b .free := by
    simp [record, moves, hpc, hself]
  have hflags : s'.is_allocated = s.is_allocated := by rw [hs']; rfl
  obtain ⟨blocks, hlist⟩ := hi.lists
  have hfresh : b ∉ blocks := fun hb => by
    have hfree := ((hlist.mem_iff b).mp hb).2
    exact absurd (hfree.symm.trans hreleasing) (by simp)
  refine hi.move (turn_step hpcs (by rw [hs']; rfl)) hplace hlt ?_ ⟨b :: blocks, ?_, ?_, ?_⟩ ?_ ?_
    (fun c _ => by rw [hflags]) (by rw [hs']; rfl) ?_ trivial
  · rw [hupdates, hs', BitVec.ofNat_add, ← hi.tag, hhead]
    rfl
  · rw [hs']
    refine Linked.push ?_ (hlt.trans s.size_lt_null).ne
    change Linked nullIndex s.next (s.next b) blocks
    rw [hnext, ← hhead]
    exact hlist.linked
  · exact List.nodup_cons.mpr ⟨hfresh, hlist.nodup⟩
  · intro c
    have hmem := hlist.mem_iff c
    rw [hplace, hs']
    by_cases hc : c = b
    · subst hc
      rw [Function.update_self]
      exact ⟨fun _ => ⟨hlt, rfl⟩, fun _ => List.mem_cons_self ..⟩
    · rw [Function.update_of_ne hc, List.mem_cons, or_iff_right hc]
      exact hmem
  · intro u hut
    simp [hreleasing, Ne.symm hut]
  · intro c hc
    rw [hpc] at hc
    exact (Option.some.inj hc).symm
  · change s'.is_allocated b = false
    rw [hflags]
    exact hflag

/-- A step within a call that leaves every block where it is. -/
theorem Inv.within (hi : Inv s h) (hpcs : s'.pcs = Function.update s.pcs t pc)
    (hcap : s'.capacity = s.capacity) (hhead : s'.free_head_ = s.free_head_)
    (hmoves : moves s s' (.step t spurious) = none) (hholds : pc.holds? = (s.pcs t).holds?)
    (hflag : ∀ b, h.place b ≠ .allocating t → s'.is_allocated b = s.is_allocated b)
    (hnext : ∀ b, h.place b ≠ .releasing t → s'.next b = s.next b)
    (hpc : Fits s' (record s (.step t spurious) s' h) t pc) :
    Inv s' (record s (.step t spurious) s' h) :=
  hi.stay (turn_step hpcs hcap) (by simp [record, hmoves]) (by simp [record, hhead]) hholds hflag
    hnext hpc

/-- A step within a call that only changes the place. -/
theorem Inv.goes (hi : Inv s h) (hmoves : moves s (s.goto t pc) (.step t spurious) = none)
    (hholds : pc.holds? = (s.pcs t).holds?)
    (hpc : Fits (s.goto t pc) (record s (.step t spurious) (s.goto t pc) h) t pc) :
    Inv (s.goto t pc) (record s (.step t spurious) (s.goto t pc) h) :=
  hi.within rfl rfl rfl hmoves hholds (fun _ _ => rfl) (fun _ _ => rfl) hpc

theorem place_record {a : Label T} (hmoves : moves s s' a = none) :
    (record s a s' h).place = h.place := by
  simp [record, hmoves]

theorem holds_loop (kind : Kind) (head : Head) : (loop kind head).holds? = none := by
  rw [loop]
  split_ifs <;> rfl

omit [DecidableEq T] in
theorem moves_loop {kind : Kind} {head : Head} (hpcs : s'.pcs t = loop kind head) :
    moves s s' (.step t spurious) = none := by
  rw [moves, hpcs, loop]
  split_ifs <;> cases s.pcs t <;> rfl

/-- **Every step of a thread keeps the invariant.** -/
theorem Inv.stepThread (hi : Inv s h) (hpermitted : Permitted (s, h) (.step t spurious))
    (hstep : s.stepThread t spurious = some s') : Inv s' (record s (.step t spurious) s' h) := by
  have hfits := hi.fits t
  have hself (pc : Pc) : (s.goto t pc).pcs t = pc := Function.update_self ..
  rw [TaggedPool.stepThread] at hstep
  split at hstep
  · next kind hpc =>
    obtain ⟨⟩ := hstep
    exact hi.goes (moves_loop (hself _)) (by rw [holds_loop, hpc]; rfl)
      (fits_loop hi (by rw [loads, hpc]) rfl)
  · next kind head hpc =>
    obtain ⟨⟩ := hstep
    rw [hpc] at hfits
    have hmoves : moves s (s.goto t (.pop kind head (s.next head.index))) (.step t spurious) =
        none := by
      rw [moves, hpc, hself]
    refine hi.goes hmoves (by rw [hpc]; rfl) ⟨?_, hfits.2, fun _ => rfl⟩
    have hseen : (record s (.step t spurious) (s.goto t (.pop kind head (s.next head.index))) h).seen
        = h.seen := by
      simp [record, loads, hpc]
    have hupdates : (record s (.step t spurious) (s.goto t (.pop kind head (s.next head.index)))
        h).updates = h.updates := by
      simp [record, TaggedPool.goto]
    exact ⟨by rw [hseen, hupdates]; exact hfits.1.le, by rw [hseen]; exact hfits.1.tag,
      by rw [hseen, hupdates]; exact hfits.1.same⟩
  · next kind head next hpc =>
    split_ifs at hstep with hhead
    · rw [Permitted, permits] at hpermitted
      simp only [hpc, decide_eq_true_eq] at hpermitted
      exact hi.pop hpc hhead.1 hpermitted (Option.some.inj hstep).symm
    · obtain ⟨⟩ := hstep
      exact hi.goes (moves_loop (hself _)) (by rw [holds_loop, hpc]; rfl)
        (fits_loop hi (by rw [loads, hpc]) rfl)
  · next kind b hpc =>
    obtain ⟨⟩ := hstep
    rw [hpc] at hfits
    have hmoves : moves s { s.goto t (.count kind b) with
        is_allocated := Function.update s.is_allocated b true } (.step t spurious) = none := by
      rw [moves, hpc]
    refine hi.within rfl rfl rfl hmoves (by rw [hpc]; rfl) (fun c hc => ?_) (fun _ _ => rfl)
      ⟨by rw [place_record hmoves, hfits.1], Function.update_self ..⟩
    have hne : c ≠ b := fun hcb => hc (hcb ▸ hfits.1)
    exact Function.update_of_ne hne ..
  · next kind b hpc =>
    obtain ⟨⟩ := hstep
    rw [hpc] at hfits
    cases kind with
    | raw =>
      have hmoves : moves s { s.goto t (.allocated (some b)) with
          allocated_count_ := s.allocated_count_ + 1 } (.step t spurious) = none := by
        rw [moves, hpc]
      exact hi.within rfl rfl rfl hmoves (by rw [hpc]; rfl) (fun _ _ => rfl) (fun _ _ => rfl)
        ⟨by rw [place_record hmoves, hfits.1], hfits.2⟩
    | object throws =>
      have hmoves : moves s { s.goto t (.construct throws b) with
          allocated_count_ := s.allocated_count_ + 1 } (.step t spurious) = none := by
        rw [moves, hpc]
      exact hi.within rfl rfl rfl hmoves (by rw [hpc]; rfl) (fun _ _ => rfl) (fun _ _ => rfl)
        ⟨by rw [place_record hmoves, hfits.1], hfits.2⟩
  · next throws b hpc =>
    obtain ⟨⟩ := hstep
    rw [hpc] at hfits
    cases throws with
    | true =>
      have hmoves : moves s (s.goto t (.exchange true b)) (.step t spurious) = none := by
        rw [moves, hpc]
      exact hi.goes hmoves (by rw [hpc]; rfl)
        ⟨(congrFun (place_record hmoves) b).trans hfits.1, hfits.2⟩
    | false =>
      have hmoves : moves s (s.goto t (.allocated (some b))) (.step t spurious) = none := by
        rw [moves, hpc]
      exact hi.goes hmoves (by rw [hpc]; rfl)
        ⟨(congrFun (place_record hmoves) b).trans hfits.1, hfits.2⟩
  · next undo b hpc =>
    split_ifs at hstep with hset
    · exact hi.unmark hpc hset hpermitted (Option.some.inj hstep).symm
    · obtain ⟨⟩ := hstep
      have hmoves : moves s (s.goto t (.deallocated undo false)) (.step t spurious) = none := by
        rw [moves, hpc, hself]
      refine hi.goes hmoves ?_ trivial
      rw [hpc]
      rw [hpc] at hfits
      cases undo with
      | false => rfl
      | true => exact absurd hfits.2 hset
  · next undo b hpc =>
    obtain ⟨⟩ := hstep
    rw [hpc] at hfits
    have hmoves : moves s (s.goto t (.link undo b s.free_head_)) (.step t spurious) = none := by
      rw [moves, hpc]
    exact hi.goes hmoves (by rw [hpc]; rfl) ⟨by rw [place_record hmoves, hfits.1], hfits.2⟩
  · next undo b head hpc =>
    obtain ⟨⟩ := hstep
    rw [hpc] at hfits
    have hmoves : moves s { s.goto t (.push undo b head) with
        next := Function.update s.next b head.index } (.step t spurious) = none := by
      rw [moves, hpc]
    refine hi.within rfl rfl rfl hmoves (by rw [hpc]; rfl) (fun _ _ => rfl) (fun c hc => ?_)
      ⟨⟨by rw [place_record hmoves, hfits.1], hfits.2⟩, Function.update_self ..⟩
    have hne : c ≠ b := fun hcb => hc (hcb ▸ hfits.1)
    exact Function.update_of_ne hne ..
  · next undo b head hpc =>
    split_ifs at hstep with hhead
    · exact hi.push hpc hhead.1 (Option.some.inj hstep).symm
    · obtain ⟨⟩ := hstep
      rw [hpc] at hfits
      have hmoves : moves s (s.goto t (.link undo b s.free_head_)) (.step t spurious) = none := by
        rw [moves, hpc, hself]
      exact hi.goes hmoves (by rw [hpc]; rfl)
        ⟨by rw [place_record hmoves, hfits.1.1], hfits.1.2⟩
  · next undo b hpc =>
    obtain ⟨⟩ := hstep
    have hmoves : moves s { s.goto t (.deallocated undo true) with
        allocated_count_ := s.allocated_count_ - 1 } (.step t spurious) = none := by
      rw [moves, hpc]
    exact hi.within rfl rfl rfl hmoves (by rw [hpc]; rfl) (fun _ _ => rfl) (fun _ _ => rfl) trivial
  · cases hstep

/-- A step that begins or ends a call, and leaves every block where it is. -/
theorem Inv.enters (hi : Inv s h) {a : Label T} (hmoves : moves s (s.goto t pc) a = none)
    (hloads : loads s a = none) (hbegins : ∀ u, u ≠ t → begins u a = false)
    (hholds : pc.holds? = (s.pcs t).holds?)
    (hpc : Fits (s.goto t pc) (record s a (s.goto t pc) h) t pc) :
    Inv (s.goto t pc) (record s a (s.goto t pc) h) := by
  have hturn : Turn s h (s.goto t pc) (record s a (s.goto t pc) h) t pc :=
    { pcs := rfl
      capacity := rfl
      seen := fun u _ => by simp [record, hloads]
      le := updates_le _
      head := head_of_updates
      empty := fun u hut => wasEmpty_record (hbegins u hut) }
  exact hi.stay hturn (place_record hmoves) (by simp [record, TaggedPool.goto]) hholds
    (fun _ _ => rfl) (fun _ _ => rfl) hpc

/-- A block is given to the thread `u`, by `allocate` or by its owner. -/
theorem Inv.give (hi : Inv s h) {a : Label T} (hturn : Turn s h s' (record s a s' h) t pc)
    (hs' : s' = s.goto t pc) (hplace : (record s a s' h).place = Function.update h.place b (.owned u))
    (hmine : h.place b = .allocating t ∨ h.place b = .owned t)
    (hlt : b < s.size) (hset : s.is_allocated b = true)
    (hholds : ∀ c, (s.pcs t).holds? = some c → c = b) (hpc : Fits s' (record s a s' h) t pc) :
    Inv s' (record s a s' h) := by
  subst hs'
  obtain ⟨blocks, hlist⟩ := hi.lists
  have hupdates : (record s a (s.goto t pc) h).updates = h.updates := by
    simp [record, TaggedPool.goto]
  have hold : h.place b ≠ .free := by
    rcases hmine with hb | hb <;> simp [hb]
  refine hi.move hturn hplace hlt (by rw [hupdates]; exact hi.tag)
    ⟨blocks, hlist.keep rfl rfl rfl hplace hold (by simp)⟩ (fun v hv => ?_) hholds
    (fun _ _ => rfl) rfl hset hpc
  rcases hmine with hb | hb <;> simp [hb, Ne.symm hv]

/-- **Every permitted step keeps the invariant.** -/
theorem Inv.step (hi : Inv s h) {a : Label T} (hpermitted : Permitted (s, h) a)
    (hstep : s.step a = some s') : Inv s' (record s a s' h) := by
  cases a with
  | step t spurious => exact hi.stepThread hpermitted hstep
  | allocate t kind =>
    obtain ⟨hout, rfl⟩ := guarded hstep
    have hpc : s.pcs t = .out := Pc.eq_out hout
    exact hi.enters rfl rfl (fun u hut => by simp [begins, hut.symm]) (by rw [hpc]; rfl) trivial
  | deallocate t b =>
    obtain ⟨hout, rfl⟩ := guarded hstep
    have hpc : s.pcs t = .out := Pc.eq_out hout
    split_ifs with hvalid
    · exact hi.enters rfl rfl (fun _ _ => rfl) (by rw [hpc]; rfl) hvalid
    · exact hi.enters rfl rfl (fun _ _ => rfl) (by rw [hpc]; rfl) trivial
  | leave t =>
    have hfits := hi.fits t
    rw [TaggedPool.step] at hstep
    split at hstep
    · next b hpc =>
      obtain ⟨⟩ := hstep
      rw [hpc] at hfits
      cases b with
      | none =>
        exact hi.enters (by rw [moves, hpc]) rfl (fun _ _ => rfl) (by rw [hpc]; rfl) trivial
      | some b =>
        have hplace : (record s (.leave t) (s.goto t .out) h).place =
            Function.update h.place b (.owned t) := by
          simp [record, moves, hpc]
        have hturn : Turn s h (s.goto t .out) (record s (.leave t) (s.goto t .out) h) t .out :=
          ⟨rfl, rfl, fun _ _ => rfl, updates_le _, head_of_updates, fun _ _ => wasEmpty_record rfl⟩
        refine hi.give hturn rfl hplace (.inl hfits.1) (hi.held b t (.inl hfits.1)).1 hfits.2
          (fun c hc => ?_) trivial
        rw [hpc] at hc
        exact (Option.some.inj hc).symm
    · next undo accepted hpc =>
      obtain ⟨⟩ := hstep
      exact hi.enters (by rw [moves, hpc]) rfl (fun _ _ => rfl) (by rw [hpc]; rfl) trivial
    · cases hstep
  | hand b t u =>
    obtain ⟨hout, rfl⟩ := guarded hstep
    have hpc : s.pcs t = .out := Pc.eq_out hout
    have howned : h.place b = .owned t := by
      rw [Permitted, permits, beq_iff_eq] at hpermitted
      exact hpermitted
    obtain ⟨hlt, hset⟩ := hi.owned b t howned
    have hsame : s = s.goto t .out := by
      rw [TaggedPool.goto, ← hpc, Function.update_eq_self]
    have hturn : Turn s h s (record s (.hand b t u) s h) t .out :=
      ⟨congrArg pcs hsame, rfl, fun _ _ => rfl, updates_le _, head_of_updates,
        fun _ _ => wasEmpty_record rfl⟩
    refine hi.give hturn hsame rfl (.inr howned) hlt hset (fun c hc => ?_) trivial
    rw [hpc] at hc
    cases hc

omit [DecidableEq T] in
/-- The pool as it is constructed. -/
theorem inv_init (hs : s = { capacity := s.capacity, next := links s.size }) :
    Inv s ({} : History T) := by
  have hpos : 0 < s.size := Nat.lt_of_lt_of_le Nat.zero_lt_two s.capacity.two_le
  have hlist : Lists s ({} : History T) (List.range' 0 s.size) := by
    refine ⟨?_, List.nodup_range', fun b => ?_⟩
    · rw [hs]
      refine linked_range' (fun k _ => ?_) ?_ hpos
      · simp only [links, Nat.zero_add]
        rfl
      · rw [Nat.zero_add]
        exact s.size_lt_null.le
    · simp [List.mem_range'_1]
  refine ⟨by rw [hs]; rfl, ⟨_, hlist⟩, fun t => by rw [hs]; trivial, ?_, ?_, ?_⟩
  · intro b t hb
    rcases hb with hb | hb <;> cases hb
  · intro b t hb
    cases hb
  · intro b _ _
    rw [hs]

/-- **The invariant holds in every run** of callers that keep to the rules. -/
theorem inv_of_reachable {p : TaggedPool T × History T}
    (hp : (observed T).ReachableUnder Permitted p) : Inv p.1 p.2 := by
  refine Machine.ReachableUnder.invariant (I := fun p => Inv p.1 p.2) ⟨?_, ?_⟩ hp
  · rintro ⟨s, h⟩ ⟨hs, hh⟩
    exact hh ▸ inv_init hs
  · rintro ⟨s, h⟩ a ⟨s', h'⟩ hinv hpermitted hstep
    obtain ⟨hs', hrecord⟩ := Machine.withHistory_step.mp hstep
    exact hrecord ▸ Inv.step hinv hpermitted hs'

/-! ## What the pool promises -/

def Place.isFree : Place T → Bool
  | free => true
  | _ => false

def Place.isOwned : Place T → Bool
  | owned _ => true
  | _ => false

/-- The block is in transit inside a call. -/
def Place.inTransit : Place T → Bool
  | allocating _ => true
  | releasing _ => true
  | _ => false

/-- How many blocks have such a place. -/
def count (s : TaggedPool T) (h : History T) (kind : Place T → Bool) : ℕ :=
  (List.range s.size).countP fun b => kind (h.place b)

omit [DecidableEq T] in
/-- Every block is free, allocated, or in transit. -/
theorem counts_eq (s : TaggedPool T) (h : History T) :
    count s h Place.isFree + count s h Place.isOwned + count s h Place.inTransit = s.size := by
  have hall (l : List ℕ) : l.countP (fun b => (h.place b).isFree) +
      l.countP (fun b => (h.place b).isOwned) + l.countP (fun b => (h.place b).inTransit) =
        l.length := by
    induction l with
    | nil => rfl
    | cons b l ih =>
      rw [List.countP_cons, List.countP_cons, List.countP_cons, List.length_cons, ← ih]
      cases h.place b <;> simp [Place.isFree, Place.isOwned, Place.inTransit] <;> omega
  exact (hall _).trans (List.length_range ..)

omit [DecidableEq T] in
/-- The list is as long as there are free blocks. -/
theorem Lists.length_eq {blocks : List ℕ} (hlist : Lists s h blocks) :
    blocks.length = count s h Place.isFree := by
  have hperm : blocks.Perm ((List.range s.size).filter fun b => (h.place b).isFree) := by
    refine (List.perm_ext_iff_of_nodup hlist.nodup (List.nodup_range.filter _)).mpr fun b => ?_
    rw [hlist.mem_iff, List.mem_filter, List.mem_range]
    cases h.place b <;> simp [Place.isFree]
  rw [hperm.length_eq, count, List.countP_eq_length_filter]

/-- What holds of the pool after the run `h`. -/
structure Sound (s : TaggedPool T) (h : History T) : Prop where
  /-- The list has no cycle, and its blocks are those that nobody has; the counts of the free blocks,
  of the allocated ones and of those in transit sum to the capacity. -/
  lists : ∃ blocks, Linked nullIndex s.next s.free_head_.index blocks ∧ blocks.Nodup ∧
    (∀ b, b ∈ blocks ↔ b < s.size ∧ h.place b = .free) ∧
    blocks.length + count s h Place.isOwned + count s h Place.inTransit = s.size
  /-- A block in transit is inside one call. -/
  transit : ∀ b t, h.place b = .allocating t ∨ h.place b = .releasing t ↔
    (s.pcs t).holds? = some b
  /-- What `allocate` returns nobody else has. -/
  returned : ∀ t b, s.pcs t = .allocated (some b) → b < s.size ∧ h.place b = .allocating t
  /-- It returns nothing only if the list was empty at some moment of the call. -/
  null : ∀ t, s.pcs t = .allocated none → h.wasEmpty t = true
  /-- The owner can deallocate its block, -/
  mine : ∀ b t, h.place b = .owned t → s.is_allocated b = true
  /-- and a second time, before it is allocated again, the answer is no and nothing changes. -/
  again : ∀ t b spurious, s.pcs t = .exchange false b → (h.place b).mayRelease t = true →
    h.place b ≠ .owned t → s.step (.step t spurious) = some (s.goto t (.deallocated false false))

omit [DecidableEq T] in
/-- A call that holds a block has it in transit. -/
theorem Inv.place_of_holds (hi : Inv s h) (hholds : (s.pcs t).holds? = some b) :
    h.place b = .allocating t ∨ h.place b = .releasing t := by
  have hfits := hi.fits t
  revert hholds hfits
  generalize s.pcs t = pc
  intro hholds hfits
  cases pc with
  | flag kind c => exact .inl (Option.some.inj hholds ▸ hfits.1)
  | count kind c => exact .inl (Option.some.inj hholds ▸ hfits.1)
  | construct throws c => exact .inl (Option.some.inj hholds ▸ hfits.1)
  | allocated c =>
    obtain rfl : c = some b := hholds
    exact .inl hfits.1
  | exchange undo c =>
    cases undo with
    | false => cases hholds
    | true => exact .inl (Option.some.inj hholds ▸ hfits.1)
  | loadHead undo c => exact .inr (Option.some.inj hholds ▸ hfits.1)
  | link undo c head => exact .inr (Option.some.inj hholds ▸ hfits.1)
  | push undo c head => exact .inr (Option.some.inj hholds ▸ hfits.1.1)
  | _ => cases hholds

/-- **The pool is sound**, for every interleaving of any number of threads. -/
theorem pool_sound (s : TaggedPool T) (h : History T)
    (hrun : (observed T).ReachableUnder Permitted (s, h)) : Sound s h := by
  have hi : Inv s h := inv_of_reachable hrun
  refine ⟨?_, fun b t => ⟨fun hb => (hi.held b t hb).2, hi.place_of_holds⟩, ?_, ?_,
    fun b t hb => (hi.owned b t hb).2, ?_⟩
  · obtain ⟨blocks, hlist⟩ := hi.lists
    exact ⟨blocks, hlist.linked, hlist.nodup, hlist.mem_iff, hlist.length_eq ▸ counts_eq s h⟩
  · intro t b hpc
    have hfits := hi.fits t
    rw [hpc] at hfits
    exact ⟨(hi.held b t (.inl hfits.1)).1, hfits.1⟩
  · intro t hpc
    have hfits := hi.fits t
    rw [hpc] at hfits
    exact hfits
  · intro t b spurious hpc hmay hnot
    have hfits := hi.fits t
    rw [hpc] at hfits
    have hunset := hi.unmarked hfits hmay hnot
    rw [TaggedPool.step, TaggedPool.stepThread, hpc]
    simp only [hunset]
    rfl

/-- The thread 0 is about to take off the block 0, and has read its next one; the thread 1 takes both
and gives the first one back, and again, before the thread 0 goes on. -/
def recycledRun : List (Label ℕ) :=
  .allocate 0 .raw :: List.replicate 2 (.step 0 false) ++
    .allocate 1 .raw :: List.replicate 5 (.step 1 false) ++ .leave 1 ::
    .allocate 1 (.object false) :: List.replicate 6 (.step 1 false) ++ .leave 1 ::
    .deallocate 1 0 :: List.replicate 5 (.step 1 false) ++ .leave 1 ::
    .deallocate 1 0 :: .step 1 false :: .leave 1 :: List.replicate 4 (.step 0 false)

/-- The exchange of the thread 0 fails, though the block 0 is first again: it takes it off with its new
next block. -/
theorem pool_sound_recycled : ∃ p, (observed ℕ).exec
    ({ capacity := ThreadSafeQueue.smallest, next := links 16 }, {}) recycledRun = some p ∧
      p.1.free_head_.index = 2 ∧ Sound p.1 p.2 := by
  have hrun : ((observed ℕ).exec
      ({ capacity := ThreadSafeQueue.smallest, next := links 16 }, {}) recycledRun).any (fun p =>
        p.1.free_head_.index == 2) = true := by
    decide +kernel
  obtain ⟨p, hexec, hindex⟩ := (Option.any_eq_true _ _).mp hrun
  have hinit : (observed ℕ).ReachableUnder Permitted
    ({ capacity := ThreadSafeQueue.smallest, next := links 16 }, {}) := .init ⟨rfl, rfl⟩
  have hchecks : (observed ℕ).checks permits
      ({ capacity := ThreadSafeQueue.smallest, next := links 16 }, {}) recycledRun = true := by
    decide +kernel
  exact ⟨p, hexec, beq_iff_eq.mp hindex, pool_sound p.1 p.2
    (hinit.exec (Machine.allowed_of_checks (fun _ _ hg => hg) hchecks) hexec)⟩

end TaggedPool

end AxonVex
