import AxonVex.Machinery.Table

/-!
# Core/Containers — the block pool and the bounded queue

`MemoryPool<T>` hands out blocks from a free list that is linked in index order at construction and
grows at the head when a block is given back.  `MemoryPool` carries that shape: the blocks from
`fresh` on have never been handed out, `freed` is the part of the list that has come back, and the
fields `freed_lt`, `freed_nodup` and `mem_blocks` say that each block is exactly one of fresh,
freed and allocated.

`ThreadSafeQueue<T>` is read here as the bounded first-in first-out queue it implements; `size_le`
is the bound.
-/

namespace AxonVex

open Machinery

/-- `nextPowerOf2(size_t)` of the pool and of the queue. -/
def nextPowerOf2 (value : UInt64) : UInt64 :=
  if value = 0 then 1
  else
    let v := value - 1
    let v := v ||| (v >>> 1)
    let v := v ||| (v >>> 2)
    let v := v ||| (v >>> 4)
    let v := v ||| (v >>> 8)
    let v := v ||| (v >>> 16)
    let v := v ||| ((v >>> 16) >>> 16)
    v + 1

/-- `MIN_POOL_SIZE` and `MIN_CAPACITY`. -/
def minPoolSize : ℕ := 16

/-- `MAX_POOL_SIZE` and `MAX_CAPACITY`. -/
def maxPoolSize : ℕ := 1024 * 1024

/-- The number of blocks of a pool, and of slots of a queue, asked for with a size. -/
def poolSize (size : UInt64) : ℕ := max minPoolSize (min maxPoolSize (nextPowerOf2 size).toNat)

theorem poolSize_le (size : UInt64) : poolSize size ≤ maxPoolSize :=
  max_le (by decide) (min_le_left _ _)

/-! ## The pool -/

/-- `MemoryPool<T>`: a fixed number of blocks, each fresh, freed or allocated. -/
structure MemoryPool (T : Type*) where
  capacity : ℕ
  /-- the first block never handed out -/
  fresh : ℕ
  /-- the blocks given back, last first -/
  freed : List ℕ
  /-- the allocated blocks and the objects in them -/
  blocks : Table ℕ T
  fresh_le : fresh ≤ capacity
  freed_nodup : freed.Nodup
  freed_lt : ∀ b ∈ freed, b < fresh
  mem_blocks : ∀ b, b ∈ blocks ↔ b < fresh ∧ b ∉ freed

namespace MemoryPool

variable {T : Type*} {p q : MemoryPool T} {b c : ℕ} {v w : T}

/-- The pool as constructed. -/
def new (size : UInt64) : MemoryPool T where
  capacity := poolSize size
  fresh := 0
  freed := []
  blocks := ∅
  fresh_le := Nat.zero_le _
  freed_nodup := List.nodup_nil
  freed_lt := by simp
  mem_blocks b := by simp

/-- `allocateObject(value)`: the head of the free list, or nothing when it is empty. -/
def allocateObject (p : MemoryPool T) (value : T) : Option (ℕ × MemoryPool T) :=
  match hf : p.freed with
  | b :: rest =>
    some (b, { p with
      freed := rest
      blocks := p.blocks.insert b value
      freed_nodup := (List.nodup_cons.mp (hf ▸ p.freed_nodup)).2
      freed_lt := fun c hc => p.freed_lt c (by rw [hf]; exact List.mem_cons_of_mem b hc)
      mem_blocks := fun c => by
        have hb : b < p.fresh := p.freed_lt b (by simp [hf])
        have hnd : b ∉ rest := (List.nodup_cons.mp (hf ▸ p.freed_nodup)).1
        rw [AList.mem_insert, p.mem_blocks, hf, List.mem_cons]
        by_cases hcb : c = b
        · subst hcb
          simp [hb, hnd]
        · simp [hcb] })
  | [] =>
    if hlt : p.fresh < p.capacity then
      some (p.fresh, { p with
        fresh := p.fresh + 1
        blocks := p.blocks.insert p.fresh value
        fresh_le := hlt
        freed_lt := fun c hc => Nat.lt_succ_of_lt (p.freed_lt c hc)
        mem_blocks := fun c => by
          rw [AList.mem_insert, p.mem_blocks, hf]
          simp only [List.not_mem_nil, not_false_eq_true, and_true]
          omega })
    else none

/-- `deallocateObject(ptr)`: a block that is allocated goes to the head of the free list; for any
other pointer nothing changes. -/
def deallocateObject (p : MemoryPool T) (b : ℕ) : MemoryPool T :=
  if hb : b ∈ p.blocks then
    { p with
      freed := b :: p.freed
      blocks := p.blocks.erase b
      freed_nodup := List.nodup_cons.mpr ⟨((p.mem_blocks b).mp hb).2, p.freed_nodup⟩
      freed_lt := by
        intro c hc
        rcases List.mem_cons.mp hc with rfl | hc
        · exact ((p.mem_blocks _).mp hb).1
        · exact p.freed_lt c hc
      mem_blocks := fun c => by
        rw [AList.mem_erase, p.mem_blocks, List.mem_cons]
        tauto }
  else p

/-- The pool with the object in block `b` changed by `f`. -/
def update (p : MemoryPool T) (b : ℕ) (f : T → T) : MemoryPool T :=
  { p with
    blocks := p.blocks.modify b f
    mem_blocks := fun c => by rw [AList.mem_modify, p.mem_blocks] }

/-! ### What the operations do to the allocated blocks -/

@[simp] theorem new_blocks (size : UInt64) : (new size : MemoryPool T).blocks = ∅ := rfl

/-- An allocated block was free, and holds the object. -/
theorem allocateObject_spec (h : p.allocateObject v = some (b, q)) :
    b ∉ p.blocks ∧ q.blocks = p.blocks.insert b v ∧ q.capacity = p.capacity := by
  unfold allocateObject at h
  split at h
  next c rest hf =>
    obtain ⟨rfl, rfl⟩ := Prod.mk.inj (Option.some.inj h)
    exact ⟨fun hc => ((p.mem_blocks _).mp hc).2 (by simp [hf]), rfl, rfl⟩
  next hf =>
    split at h
    · obtain ⟨rfl, rfl⟩ := Prod.mk.inj (Option.some.inj h)
      exact ⟨fun hc => lt_irrefl _ ((p.mem_blocks _).mp hc).1, rfl, rfl⟩
    · cases h

theorem lookup_allocateObject (h : p.allocateObject v = some (b, q)) :
    q.blocks.lookup c = some w ↔ c = b ∧ v = w ∨ c ≠ b ∧ p.blocks.lookup c = some w := by
  rw [(allocateObject_spec h).2.1, AList.lookup_insert_eq_some]

@[simp] theorem deallocateObject_blocks : (p.deallocateObject b).blocks = p.blocks.erase b := by
  unfold deallocateObject
  split
  · rfl
  next hb => exact (AList.erase_of_notMem hb).symm

/-- Blocks that are given back hold nothing. -/
theorem lookup_foldl_deallocateObject (bs : List ℕ) (p : MemoryPool T) (c : ℕ) :
    (bs.foldl deallocateObject p).blocks.lookup c =
      if c ∈ bs then none else p.blocks.lookup c := by
  induction bs generalizing p with
  | nil => rfl
  | cons b bs ih =>
    rw [List.foldl_cons, ih, deallocateObject_blocks]
    by_cases hcb : c = b
    · subst hcb
      rw [AList.lookup_erase, ite_self, if_pos List.mem_cons_self]
    · rw [AList.lookup_erase_ne hcb]
      simp only [List.mem_cons, hcb, false_or]

@[simp] theorem update_blocks (f : T → T) : (p.update b f).blocks = p.blocks.modify b f := rfl

/-- Each block ever handed out is allocated or freed. -/
theorem length_blocks (p : MemoryPool T) : p.blocks.keys.length + p.freed.length = p.fresh := by
  have hperm : (p.blocks.keys ++ p.freed).Perm (List.range p.fresh) := by
    refine (List.perm_ext_iff_of_nodup ?_ List.nodup_range).mpr fun b => ?_
    · refine List.nodup_append'.mpr ⟨p.blocks.keys_nodup, p.freed_nodup, fun b hb hf => ?_⟩
      exact ((p.mem_blocks b).mp (AList.mem_keys.mpr hb)).2 hf
    · rw [List.mem_append, ← AList.mem_keys, p.mem_blocks, List.mem_range]
      by_cases hf : b ∈ p.freed
      · simp [hf, p.freed_lt b hf]
      · simp [hf]
  simpa using hperm.length_eq

/-- **There is a block to hand out while not all are allocated.** -/
theorem allocateObject_isSome : (p.allocateObject v).isSome = true ↔
    p.blocks.keys.length < p.capacity := by
  have hlen := p.length_blocks
  have hle := p.fresh_le
  unfold allocateObject
  split
  next b rest hf =>
    rw [hf, List.length_cons] at hlen
    exact iff_of_true rfl (by omega)
  next hf =>
    rw [hf, List.length_nil] at hlen
    split
    next hlt => exact iff_of_true rfl (by omega)
    next hlt => exact iff_of_false (by simp) (by omega)

/-- One more block is allocated. -/
theorem length_allocateObject (h : p.allocateObject v = some (b, q)) :
    q.blocks.keys.length = p.blocks.keys.length + 1 := by
  obtain ⟨hb, hq, -⟩ := allocateObject_spec h
  rw [hq, AList.keys_insert, List.erase_of_not_mem fun hm => hb (AList.mem_keys.mpr hm)]
  rfl

/-! ### Pools that agree on what `f` sees -/

variable {α : Type*} {f : T → α} {g : T → T}

/-- The same blocks are allocated, and `f` sees no difference between the objects in them. -/
def SameOn (f : T → α) (p q : MemoryPool T) : Prop :=
  ∀ b, (q.blocks.lookup b).map f = (p.blocks.lookup b).map f

theorem SameOn.refl (p : MemoryPool T) : SameOn f p p := fun _ => rfl

theorem SameOn.trans {r : MemoryPool T} (h : SameOn f p q) (h' : SameOn f q r) : SameOn f p r :=
  fun b => (h' b).trans (h b)

theorem SameOn.symm (h : SameOn f p q) : SameOn f q p := fun b => (h b).symm

/-- An object has its like in the other pool. -/
theorem SameOn.exists_lookup (h : SameOn f p q) (hb : p.blocks.lookup b = some v) :
    ∃ w, q.blocks.lookup b = some w ∧ f w = f v := by
  have hq := h b
  rwa [hb, Option.map_some, Option.map_eq_some_iff] at hq

theorem SameOn.mem_iff (h : SameOn f p q) : b ∈ q.blocks ↔ b ∈ p.blocks := by
  rw [← AList.lookup_isSome, ← AList.lookup_isSome, ← Option.isSome_map, h b, Option.isSome_map]

/-- A change of one object that `f` does not see. -/
theorem sameOn_update (hg : ∀ v, p.blocks.lookup b = some v → f (g v) = f v) :
    SameOn f p (p.update b g) := by
  intro c
  rw [update_blocks]
  by_cases hcb : c = b
  · subst hcb
    rw [AList.lookup_modify_self]
    cases hc : p.blocks.lookup c with
    | none => rfl
    | some v => exact congrArg some (hg v hc)
  · rw [AList.lookup_modify_ne hcb]

/-- The same change made to several objects. -/
theorem sameOn_foldl_update (hg : ∀ v, f (g v) = f v) (bs : List ℕ) (p : MemoryPool T) :
    SameOn f p (bs.foldl (fun p b => p.update b g) p) := by
  induction bs generalizing p with
  | nil => exact .refl p
  | cons b bs ih => exact (sameOn_update fun v _ => hg v).trans (ih _)

/-- A change that made twice is made once, made to several objects. -/
theorem lookup_foldl_update (hg : ∀ v, g (g v) = g v) (bs : List ℕ) (p : MemoryPool T) (c : ℕ) :
    (bs.foldl (fun p b => p.update b g) p).blocks.lookup c =
      if c ∈ bs then (p.blocks.lookup c).map g else p.blocks.lookup c := by
  induction bs generalizing p with
  | nil => rfl
  | cons b bs ih =>
    rw [List.foldl_cons, ih, update_blocks]
    by_cases hcb : c = b
    · subst hcb
      rw [AList.lookup_modify_self, if_pos (List.mem_cons_self ..)]
      split_ifs
      · rw [Option.map_map]
        exact congrArg (Option.map · _) (funext hg)
      · rfl
    · have hmem : c ∈ b :: bs ↔ c ∈ bs := by
        rw [List.mem_cons, or_iff_right hcb]
      rw [AList.lookup_modify_ne hcb, if_congr hmem rfl rfl]

/-! ### The same pool with other objects -/

variable {r : T → T}

/-- The pool with `r` applied to every object. -/
def map (r : T → T) (p : MemoryPool T) : MemoryPool T :=
  { p with
    blocks := p.blocks.mapValues fun _ => r
    mem_blocks := fun c => by rw [AList.mem_mapValues, p.mem_blocks] }

theorem lookup_map (p : MemoryPool T) (b : ℕ) :
    (p.map r).blocks.lookup b = (p.blocks.lookup b).map r := AList.lookup_mapValues ..

/-- Pools with the same blocks in the same state. -/
theorem ext_fields (hcapacity : p.capacity = q.capacity) (hfresh : p.fresh = q.fresh)
    (hfreed : p.freed = q.freed) (hblocks : p.blocks = q.blocks) : p = q := by
  cases p
  cases q
  cases hcapacity
  cases hfresh
  cases hfreed
  cases hblocks
  rfl

/-- A change of one object. -/
theorem map_update {f g : T → T} (hg : ∀ v, g (r v) = r (f v)) (p : MemoryPool T) (b : ℕ) :
    (p.update b f).map r = (p.map r).update b g := by
  refine ext_fields rfl rfl rfl ?_
  have hboth : (p.blocks.modify b f).mapValues (fun _ => r) =
      (p.blocks.mapValues fun _ => r).modify b g := by
    rw [AList.modify, AList.mapValues_mapValues, AList.modify, AList.mapValues_mapValues]
    refine congrArg _ (funext fun k => funext fun v => ?_)
    split_ifs
    · exact (hg v).symm
    · rfl
  exact hboth

theorem map_deallocateObject (p : MemoryPool T) (b : ℕ) :
    (p.deallocateObject b).map r = (p.map r).deallocateObject b := by
  have hmem : b ∈ (p.map r).blocks ↔ b ∈ p.blocks := AList.mem_mapValues ..
  unfold deallocateObject
  by_cases hb : b ∈ p.blocks
  · rw [dif_pos hb, dif_pos (hmem.mpr hb)]
    refine ext_fields rfl rfl rfl ?_
    have herase : (p.blocks.erase b).mapValues (fun _ => r) =
        (p.blocks.mapValues fun _ => r).erase b := AList.mapValues_erase ..
    exact herase
  · rw [dif_neg hb, dif_neg (fun h => hb (hmem.mp h))]

/-- An object that is changed and then given back is given back. -/
theorem deallocateObject_update (hb : b ∈ p.blocks) (f : T → T) :
    (p.update b f).deallocateObject b = p.deallocateObject b := by
  have hmem : b ∈ (p.update b f).blocks := (AList.mem_modify ..).mpr hb
  unfold deallocateObject
  rw [dif_pos hb, dif_pos hmem]
  exact ext_fields rfl rfl rfl (AList.erase_modify ..)

/-- The fields of the pool once a block is handed out. -/
structure HandsOut (p : MemoryPool T) (v : T) (b fresh : ℕ) (freed : List ℕ) (q : MemoryPool T) :
    Prop where
  capacity : q.capacity = p.capacity
  fresh : q.fresh = fresh
  freed : q.freed = freed
  blocks : q.blocks = p.blocks.insert b v

theorem allocateObject_of_freed {rest : List ℕ} (hf : p.freed = b :: rest) :
    ∃ q, p.allocateObject v = some (b, q) ∧ HandsOut p v b p.fresh rest q := by
  unfold allocateObject
  split
  next b' rest' hf' =>
    obtain ⟨rfl, rfl⟩ := List.cons.inj (hf'.symm.trans hf)
    exact ⟨_, rfl, rfl, rfl, rfl, rfl⟩
  next hf' => cases hf.symm.trans hf'

theorem allocateObject_of_fresh (hf : p.freed = []) (hlt : p.fresh < p.capacity) :
    ∃ q, p.allocateObject v = some (p.fresh, q) ∧ HandsOut p v p.fresh (p.fresh + 1) [] q := by
  unfold allocateObject
  split
  next b' rest' hf' => cases hf'.symm.trans hf
  next hf' =>
    rw [dif_pos hlt]
    exact ⟨_, rfl, rfl, rfl, hf, rfl⟩

theorem allocateObject_of_full (hf : p.freed = []) (hlt : ¬ p.fresh < p.capacity) :
    p.allocateObject v = none := by
  unfold allocateObject
  split
  next b' rest' hf' => cases hf'.symm.trans hf
  next hf' => rw [dif_neg hlt]

theorem HandsOut.map {fresh : ℕ} {freed : List ℕ} {q' : MemoryPool T}
    (hq : HandsOut p v b fresh freed q) (hq' : HandsOut (p.map r) (r v) b fresh freed q') :
    q' = q.map r := by
  refine ext_fields (hq'.capacity.trans hq.capacity.symm) (hq'.fresh.trans hq.fresh.symm)
    (hq'.freed.trans hq.freed.symm) ?_
  have hmap : (p.blocks.insert b v).mapValues (fun _ => r) =
      (p.blocks.mapValues fun _ => r).insert b (r v) := AList.mapValues_insert ..
  have hblocks : (q.map r).blocks = q.blocks.mapValues fun _ => r := rfl
  rw [hq'.blocks, hblocks, hq.blocks, hmap]
  rfl

theorem map_allocateObject (p : MemoryPool T) (v : T) : (p.map r).allocateObject (r v) =
    (p.allocateObject v).map fun h => (h.1, h.2.map r) := by
  cases hf : p.freed with
  | cons b rest =>
    obtain ⟨q, halloc, hq⟩ := allocateObject_of_freed (v := v) hf
    obtain ⟨q', halloc', hq'⟩ := allocateObject_of_freed (p := p.map r) (v := r v) hf
    rw [halloc, halloc', hq.map hq']
    rfl
  | nil =>
    by_cases hlt : p.fresh < p.capacity
    · obtain ⟨q, halloc, hq⟩ := allocateObject_of_fresh (v := v) hf hlt
      obtain ⟨q', halloc', hq'⟩ := allocateObject_of_fresh (p := p.map r) (v := r v) hf hlt
      rw [halloc, halloc', hq.map hq']
      rfl
    · rw [allocateObject_of_full hf hlt, allocateObject_of_full (p := p.map r) hf hlt]
      rfl

end MemoryPool

/-! ## The queue -/

/-- `ThreadSafeQueue<T>`: at most `capacity` items, first in first out. -/
structure ThreadSafeQueue (T : Type*) where
  capacity : ℕ
  items : List T
  size_le : items.length ≤ capacity

namespace ThreadSafeQueue

variable {T : Type*} {q r : ThreadSafeQueue T} {v : T}

/-- The queue as constructed. -/
def new (size : UInt64) : ThreadSafeQueue T := ⟨poolSize size, [], Nat.zero_le _⟩

/-- `enqueue(item)`: refused by a full queue. -/
def enqueue (q : ThreadSafeQueue T) (item : T) : Option (ThreadSafeQueue T) :=
  if h : q.items.length < q.capacity then
    some ⟨q.capacity, q.items ++ [item], by rw [List.length_append]; exact h⟩
  else none

/-- `tryDequeue()`: the oldest item. -/
def tryDequeue (q : ThreadSafeQueue T) : Option (T × ThreadSafeQueue T) :=
  match h : q.items with
  | [] => none
  | v :: rest => some (v, ⟨q.capacity, rest, by have := q.size_le; simp [h] at this; omega⟩)

/-- The queue with every item taken out. -/
def emptied (q : ThreadSafeQueue T) : ThreadSafeQueue T := ⟨q.capacity, [], Nat.zero_le _⟩

end ThreadSafeQueue

end AxonVex
