import AxonVex.Machinery.TicketRing
import Mathlib.Data.List.Nodup

/-!
# Machinery/ServedRing — a ring whose items one thread at a time takes out and serves

    served ++ hand  =  the log, up to `dequeuePos`

Whoever enqueues, and however: what was served, with the item at hand, is a prefix of the log of the
ring (`Served`), and if the items carry the thread and the number of their call, those of one thread
come in the order of its calls (`Ordered`).  When nobody enqueues any more an empty answer is right
(`Served.emptied`).
-/

namespace Machinery

namespace RingPc

variable {R : Type*}

/-- The item of an enqueue that has no ticket yet. -/
def offers? : RingPc R → Option R
  | enqueue item => some item
  | probe item _ => some item
  | claim item _ => some item
  | _ => none

/-- The item that an enqueue brings with it, or takes back. -/
def carries? : RingPc R → Option R
  | enqueue item => some item
  | probe item _ => some item
  | claim item _ => some item
  | enqueued item false => some item
  | _ => none

/-- An enqueue that has not published its item. -/
def enqueues : RingPc R → Bool
  | enqueue _ => true
  | probe _ _ => true
  | claim _ _ => true
  | write _ _ => true
  | publish _ _ => true
  | _ => false

/-- A dequeue that has taken its item. -/
def holds : RingPc R → Bool
  | read _ => true
  | release _ _ => true
  | dequeued (some _) => true
  | _ => false

variable {pc : RingPc R}

theorem consumes_of_holds (h : pc.holds = true) : pc.consumes = true := by
  cases pc <;> first | rfl | cases h

theorem enqueues_of_fills {pos : ℕ} (h : pc.fills? = some pos) : pc.enqueues = true := by
  cases pc <;> first | rfl | cases h

end RingPc

/-- The thread that makes a step. -/
def RingLabel.thread {T R : Type*} : RingLabel T R → T
  | enqueue t _ => t
  | dequeue t => t
  | step t _ => t
  | leave t => t

namespace TicketRing

variable {T R : Type*} [DecidableEq T] {s s' : TicketRing T R} {t u : T} {spurious : Bool}

/-- **What a step within the queue does**: a thread goes on, gets a ticket, or takes an item. -/
inductive Moves (s : TicketRing T R) (t : T) (s' : TicketRing T R) : Prop
  | goes (pc : RingPc R) (pcs : s'.pcs = Function.update s.pcs t pc) (log : s'.log = s.log)
      (enqueuePos : s'.enqueuePos = s.enqueuePos) (dequeuePos : s'.dequeuePos = s.dequeuePos)
      (offers : pc.offers? = none ∨ pc.offers? = (s.pcs t).offers?)
      (enqueues : pc.enqueues = true → (s.pcs t).enqueues = true)
      (consumes : pc.consumes = (s.pcs t).consumes) (holds : pc.holds = (s.pcs t).holds)
      (accepted : ∀ item, pc = .enqueued item true → ∃ pos, s.pcs t = .publish item pos)
      (empty : pc = .dequeued none → ∃ pos, s.pcs t = .inspect pos ∧
        s.sequence (s.index pos) < pos + 1)
  | claims (item : R) (pos : ℕ) (from_ : s.pcs t = .claim item pos)
      (pcs : s'.pcs = Function.update s.pcs t (.write item pos)) (log : s'.log = s.log ++ [item])
      (dequeuePos : s'.dequeuePos = s.dequeuePos)
  | takes (pos : ℕ) (from_ : s.pcs t = .take pos)
      (pcs : s'.pcs = Function.update s.pcs t (.read pos)) (log : s'.log = s.log)
      (enqueuePos : s'.enqueuePos = s.enqueuePos)
      (dequeuePos : s'.dequeuePos = s.dequeuePos + 1)

theorem moves_step (h : s.step (.step t spurious) = some s') : s.Moves t s' := by
  rw [step, stepThread] at h
  split at h
  next item hpc =>
    obtain ⟨⟩ := h
    exact .goes _ rfl rfl rfl rfl (.inr (by rw [hpc]; rfl)) (fun _ => by rw [hpc]; rfl)
      (by rw [hpc]; rfl) (by rw [hpc]; rfl) (by simp) (by simp)
  next item pos hpc =>
    obtain ⟨⟩ := h
    refine .goes _ rfl rfl rfl rfl ?_ (fun _ => by rw [hpc]; rfl) ?_ ?_ ?_ ?_
    all_goals split_ifs <;> simp [hpc, RingPc.offers?, RingPc.consumes, RingPc.holds]
  next item pos hpc =>
    split_ifs at h with hclaim
    · obtain ⟨⟩ := h
      exact .claims item pos hpc rfl rfl rfl
    · obtain ⟨⟩ := h
      exact .goes _ rfl rfl rfl rfl (.inr (by rw [hpc]; rfl)) (fun _ => by rw [hpc]; rfl)
        (by rw [hpc]; rfl) (by rw [hpc]; rfl) (by simp) (by simp)
  next item pos hpc =>
    obtain ⟨⟩ := h
    exact .goes (.publish item pos) rfl rfl rfl rfl (.inl rfl) (fun _ => by rw [hpc]; rfl)
      (by rw [hpc]; rfl) (by rw [hpc]; rfl) (by simp) (by simp)
  next item pos hpc =>
    obtain ⟨⟩ := h
    refine .goes (.enqueued item true) rfl rfl rfl rfl (.inl rfl) (fun _ => by rw [hpc]; rfl)
      (by rw [hpc]; rfl) (by rw [hpc]; rfl) (fun item' hitem => ⟨pos, ?_⟩) (by simp)
    rw [hpc, (RingPc.enqueued.inj hitem).1]
  next hpc =>
    obtain ⟨⟩ := h
    exact .goes _ rfl rfl rfl rfl (.inl rfl) (by simp [RingPc.enqueues]) (by rw [hpc]; rfl)
      (by rw [hpc]; rfl) (by simp) (by simp)
  next pos hpc =>
    obtain ⟨⟩ := h
    refine .goes _ rfl rfl rfl rfl ?_ ?_ ?_ ?_ ?_ fun hempty => ⟨pos, hpc, ?_⟩
    case refine_6 =>
      split_ifs at hempty with hfull hbehind
      exact hbehind
    all_goals split_ifs <;> simp [hpc, RingPc.offers?, RingPc.enqueues, RingPc.consumes, RingPc.holds]
  next pos hpc =>
    split_ifs at h with htake
    · obtain ⟨⟩ := h
      exact .takes pos hpc rfl rfl rfl (by rw [htake.1])
    · obtain ⟨⟩ := h
      exact .goes _ rfl rfl rfl rfl (.inl rfl) (by simp [RingPc.enqueues]) (by rw [hpc]; rfl)
        (by rw [hpc]; rfl) (by simp) (by simp)
  next pos hpc =>
    obtain ⟨item, -, rfl⟩ := Option.map_eq_some_iff.mp h
    exact .goes (.release item pos) rfl rfl rfl rfl (.inl rfl) (by simp [RingPc.enqueues])
      (by rw [hpc]; rfl) (by rw [hpc]; rfl) (by simp) (by simp)
  next item pos hpc =>
    obtain ⟨⟩ := h
    exact .goes (.dequeued (some item)) rfl rfl rfl rfl (.inl rfl) (by simp [RingPc.enqueues])
      (by rw [hpc]; rfl) (by rw [hpc]; rfl) (by simp) (by simp)
  next => cases h

/-- A thread goes on with the item it brings, or without. -/
theorem carries_step (h : s.step (.step t spurious) = some s') :
    (s'.pcs t).carries? = none ∨ (s'.pcs t).carries? = (s.pcs t).carries? := by
  rw [step, stepThread] at h
  split at h
  next item hpc =>
    obtain ⟨⟩ := h
    exact .inr (by simp [goto, hpc, RingPc.carries?])
  next item pos hpc =>
    obtain ⟨⟩ := h
    refine .inr ?_
    simp only [goto, Function.update_self, hpc]
    split_ifs <;> rfl
  next item pos hpc =>
    split_ifs at h
    · obtain ⟨⟩ := h
      exact .inl (by simp [goto, RingPc.carries?])
    · obtain ⟨⟩ := h
      exact .inr (by simp [goto, hpc, RingPc.carries?])
  next item pos hpc =>
    obtain ⟨⟩ := h
    exact .inl (by simp [goto, RingPc.carries?])
  next item pos hpc =>
    obtain ⟨⟩ := h
    exact .inl (by simp [goto, RingPc.carries?])
  next hpc =>
    obtain ⟨⟩ := h
    exact .inl (by simp [goto, RingPc.carries?])
  next pos hpc =>
    obtain ⟨⟩ := h
    refine .inl ?_
    simp only [goto, Function.update_self]
    split_ifs <;> rfl
  next pos hpc =>
    split_ifs at h
    all_goals
      obtain ⟨⟩ := h
      exact .inl (by simp [goto, RingPc.carries?])
  next pos hpc =>
    obtain ⟨item, -, rfl⟩ := Option.map_eq_some_iff.mp h
    exact .inl (by simp [goto, RingPc.carries?])
  next item pos hpc =>
    obtain ⟨⟩ := h
    exact .inl (by simp [goto, RingPc.carries?])
  next => cases h

/-- What a step adds to the log is what its thread brought. -/
theorem log_cases (h : s.step (.step t spurious) = some s') : s'.log = s.log ∨
    ∃ item, (s.pcs t).carries? = some item ∧ (s'.pcs t).carries? = none ∧
      s'.log = s.log ++ [item] := by
  cases moves_step h with
  | goes pc _ hlog => exact .inl hlog
  | claims item pos hfrom hpcs hlog =>
    exact .inr ⟨item, by rw [hfrom]; rfl, by rw [hpcs, Function.update_self]; rfl, hlog⟩
  | takes pos _ _ hlog => exact .inl hlog

/-- Every step puts one thread at another place. -/
theorem pcs_step {a : RingLabel T R} (h : s.step a = some s') :
    ∃ pc, s'.pcs = Function.update s.pcs a.thread pc := by
  cases a with
  | enqueue t item =>
    obtain ⟨-, hsome⟩ := Option.ite_none_right_eq_some.mp h
    exact ⟨_, (congrArg pcs (Option.some.inj hsome)).symm⟩
  | dequeue t =>
    obtain ⟨-, hsome⟩ := Option.ite_none_right_eq_some.mp h
    exact ⟨_, (congrArg pcs (Option.some.inj hsome)).symm⟩
  | step t spurious =>
    cases moves_step h with
    | goes pc hpcs => exact ⟨pc, hpcs⟩
    | claims item pos _ hpcs => exact ⟨_, hpcs⟩
    | takes pos _ hpcs => exact ⟨_, hpcs⟩
  | leave t =>
    rw [step] at h
    split at h
    · exact ⟨_, (congrArg pcs (Option.some.inj h)).symm⟩
    · exact ⟨_, (congrArg pcs (Option.some.inj h)).symm⟩
    · cases h

/-- The other threads stay where they are. -/
theorem pcs_other {a : RingLabel T R} (h : s.step a = some s') (hne : u ≠ a.thread) :
    s'.pcs u = s.pcs u := by
  obtain ⟨pc, hpcs⟩ := pcs_step h
  rw [hpcs, Function.update_of_ne hne]

/-- A thread goes on in its dequeue until it returns. -/
theorem consumes_step (h : s.step (.step t spurious) = some s') (u : T) :
    (s'.pcs u).consumes = (s.pcs u).consumes := by
  by_cases hut : u = t
  · subst hut
    cases moves_step h with
    | goes pc hpcs _ _ _ _ _ hconsumes => rw [hpcs, Function.update_self, hconsumes]
    | claims item pos hfrom hpcs => rw [hpcs, Function.update_self, hfrom]; rfl
    | takes pos hfrom hpcs => rw [hpcs, Function.update_self, hfrom]; rfl
  · rw [pcs_other h hut]

/-- Where a thread is after the call of an operation, and after its return. -/
theorem pcs_enqueue {item : R} (h : s.step (.enqueue t item) = some s') :
    s.pcs t = .out ∧ s'.pcs t = .enqueue item := by
  obtain ⟨hout, rfl⟩ := guarded h
  exact ⟨RingPc.eq_out hout, Function.update_self ..⟩

theorem pcs_dequeue (h : s.step (.dequeue t) = some s') :
    s.pcs t = .out ∧ s'.pcs t = .dequeue := by
  obtain ⟨hout, rfl⟩ := guarded h
  exact ⟨RingPc.eq_out hout, Function.update_self ..⟩

theorem pcs_leave (h : s.step (.leave t) = some s') : s'.pcs t = .out := by
  rw [step] at h
  split at h
  · obtain ⟨⟩ := h
    exact Function.update_self ..
  · obtain ⟨⟩ := h
    exact Function.update_self ..
  · cases h

/-- An operation begins, or returns: the log stays. -/
theorem log_call {a : RingLabel T R}
    (ha : (∃ t item, a = .enqueue t item) ∨ (∃ t, a = .dequeue t) ∨ ∃ t, a = .leave t)
    (h : s.step a = some s') : s'.log = s.log := by
  rcases ha with ⟨t, item, rfl⟩ | ⟨t, rfl⟩ | ⟨t, rfl⟩
  · obtain ⟨-, hsome⟩ := Option.ite_none_right_eq_some.mp h
    exact (congrArg log (Option.some.inj hsome)).symm
  · obtain ⟨-, hsome⟩ := Option.ite_none_right_eq_some.mp h
    exact (congrArg log (Option.some.inj hsome)).symm
  · rw [step] at h
    split at h
    · exact (congrArg log (Option.some.inj h)).symm
    · exact (congrArg log (Option.some.inj h)).symm
    · cases h

/-- The log grows at its end. -/
theorem log_step (h : s.step (.step t spurious) = some s') : s.log <+: s'.log := by
  cases moves_step h with
  | goes pc _ hlog => exact hlog ▸ List.prefix_rfl
  | claims item pos _ _ hlog => exact hlog ▸ List.prefix_append ..
  | takes pos _ _ hlog => exact hlog ▸ List.prefix_rfl

/-- An item is accepted when its slot is numbered. -/
theorem publishes_of_enqueued {item : R} (h : s.step (.step t spurious) = some s')
    (hpc : s'.pcs t = .enqueued item true) : ∃ pos, s.pcs t = .publish item pos := by
  cases moves_step h with
  | goes pc hpcs _ _ _ _ _ _ _ haccepted =>
    rw [hpcs, Function.update_self] at hpc
    exact haccepted item hpc
  | claims item pos _ hpcs =>
    rw [hpcs, Function.update_self] at hpc
    cases hpc
  | takes pos _ hpcs =>
    rw [hpcs, Function.update_self] at hpc
    cases hpc

/-! ## What was served -/

/-- **What was served, and the item at hand**, are the items that were taken; while one is at hand
nobody dequeues. -/
structure Served (s : TicketRing T R) (served : List R) (hand : Option R) : Prop where
  sound : s.Sound
  one : s.OneConsumer
  free : hand ≠ none → ∀ t, (s.pcs t).consumes = false
  isPrefix : served ++ hand.toList <+: s.log
  idle : (∀ t, (s.pcs t).holds = false) → served.length + hand.toList.length = s.dequeuePos
  holding : ∀ t, (s.pcs t).holds = true → served.length + 1 = s.dequeuePos

variable {served : List R} {hand : Option R}

omit [DecidableEq T] in
/-- The others hold nothing while one holds its item. -/
theorem OneConsumer.holds_ne (h : s.OneConsumer) (ht : (s.pcs t).consumes = true) (hut : u ≠ t) :
    (s.pcs u).holds = false := by
  rw [Bool.eq_false_iff]
  exact fun hu => hut (h.one u t (RingPc.consumes_of_holds hu) ht)

namespace Served

omit [DecidableEq T] in
/-- A step that leaves the items, and who holds one, as they are. -/
theorem keeps (h : s.Served served hand) (hsound : s'.Sound) (hone : s'.OneConsumer)
    (hlog : s.log <+: s'.log) (hpos : s'.dequeuePos = s.dequeuePos)
    (hconsumes : hand ≠ none → ∀ u, (s'.pcs u).consumes = (s.pcs u).consumes)
    (hholds : ∀ u, (s'.pcs u).holds = (s.pcs u).holds) : s'.Served served hand where
  sound := hsound
  one := hone
  free hhand u := (hconsumes hhand u).trans (h.free hhand u)
  isPrefix := h.isPrefix.trans hlog
  idle hnone := by
    rw [hpos]
    exact h.idle fun u => (hholds u).symm.trans (hnone u)
  holding u hu := by
    rw [hpos]
    exact h.holding u ((hholds u).symm.trans hu)

/-- The thread that moves consumes, and holds, what it did. -/
theorem eq_of_update {f : RingPc R → Bool} {pc : RingPc R}
    (hpcs : s'.pcs = Function.update s.pcs t pc) (hpc : f pc = f (s.pcs t)) (u : T) :
    f (s'.pcs u) = f (s.pcs u) := by
  rw [hpcs]
  by_cases hut : u = t
  · subst hut
    rw [Function.update_self, hpc]
  · rw [Function.update_of_ne hut]

/-- **A step within the queue.** -/
theorem step (h : s.Served served hand) (hstep : s.step (.step t spurious) = some s') :
    s'.Served served hand := by
  have hsound : s'.Sound := h.sound.step hstep
  have hone : s'.OneConsumer := h.one.step h.sound (fun u hu => by cases hu) hstep
  cases moves_step hstep with
  | goes pc hpcs hlog _ hpos _ _ hconsumes hholds =>
    exact h.keeps hsound hone (hlog ▸ List.prefix_rfl) hpos
      (fun _ => eq_of_update hpcs hconsumes) (eq_of_update hpcs hholds)
  | claims item pos hfrom hpcs hlog hpos =>
    exact h.keeps hsound hone (hlog ▸ List.prefix_append ..) hpos
      (fun _ => eq_of_update hpcs (by rw [hfrom]; rfl)) (eq_of_update hpcs (by rw [hfrom]; rfl))
  | takes pos hfrom hpcs hlog _ hpos =>
    have hconsumes : (s.pcs t).consumes = true := by rw [hfrom]; rfl
    -- nothing is at hand, and nobody holds an item
    have hhand : hand = none := by
      by_contra hsome
      rw [h.free hsome t] at hconsumes
      cases hconsumes
    have hnone (u : T) : (s.pcs u).holds = false := by
      by_cases hut : u = t
      · rw [hut, hfrom]
        rfl
      · exact h.one.holds_ne hconsumes hut
    have hidle := h.idle hnone
    subst hhand
    have hself : (s'.pcs t).holds = true := by rw [hpcs, Function.update_self]; rfl
    refine ⟨hsound, hone, fun hsome => absurd rfl hsome, hlog ▸ h.isPrefix,
      fun hnobody => ?_, fun u _ => ?_⟩
    · rw [hnobody t] at hself
      cases hself
    · rw [hpos, ← hidle]
      rfl

/-- A thread begins to enqueue. -/
theorem enqueue (h : s.Served served hand) {item : R}
    (hstep : s.step (.enqueue t item) = some s') : s'.Served served hand := by
  have hone : s'.OneConsumer := h.one.step h.sound (fun u hu => by cases hu) hstep
  have hsound : s'.Sound := h.sound.step hstep
  obtain ⟨hout, rfl⟩ := guarded hstep
  have hpc : s.pcs t = .out := RingPc.eq_out hout
  exact h.keeps hsound hone List.prefix_rfl rfl
    (fun _ => eq_of_update rfl (by rw [hpc]; rfl)) (eq_of_update rfl (by rw [hpc]; rfl))

/-- An enqueue returns. -/
theorem enqueued (h : s.Served served hand) {item : R} {accepted : Bool}
    (hpc : s.pcs t = .enqueued item accepted) (hstep : s.step (.leave t) = some s') :
    s'.Served served hand := by
  have hone : s'.OneConsumer := h.one.step h.sound (fun u hu => by cases hu) hstep
  have hsound : s'.Sound := h.sound.step hstep
  rw [TicketRing.step, hpc] at hstep
  obtain ⟨⟩ := hstep
  exact h.keeps hsound hone List.prefix_rfl rfl
    (fun _ => eq_of_update rfl (by rw [hpc]; rfl)) (eq_of_update rfl (by rw [hpc]; rfl))

/-- A thread begins to dequeue. -/
theorem dequeue (h : s.Served served none) (hfree : ∀ u, (s.pcs u).consumes = false)
    (hstep : s.step (.dequeue t) = some s') : s'.Served served none := by
  have hone : s'.OneConsumer := h.one.step h.sound (fun _ _ => hfree) hstep
  have hsound : s'.Sound := h.sound.step hstep
  obtain ⟨hout, rfl⟩ := guarded hstep
  have hpc : s.pcs t = .out := RingPc.eq_out hout
  exact h.keeps hsound hone List.prefix_rfl rfl (fun hsome => absurd rfl hsome)
    (eq_of_update rfl (by rw [hpc]; rfl))

/-- A dequeue returns, with its item at hand. -/
theorem dequeued (h : s.Served served hand) {item : Option R} (hpc : s.pcs t = .dequeued item)
    (hstep : s.step (.leave t) = some s') : s'.Served served item := by
  have hone : s'.OneConsumer := h.one.step h.sound (fun u hu => by cases hu) hstep
  have hsound : s'.Sound := h.sound.step hstep
  have hconsumes : (s.pcs t).consumes = true := by rw [hpc]; rfl
  have hhand : hand = none := by
    by_contra hsome
    rw [h.free hsome t] at hconsumes
    cases hconsumes
  rw [TicketRing.step, hpc] at hstep
  obtain ⟨⟩ := hstep
  have hother (u : T) : ((s.goto t .out).pcs u).consumes = false := by
    by_cases hut : u = t
    · subst hut
      exact congrArg RingPc.consumes (Function.update_self u RingPc.out s.pcs)
    · refine (congrArg RingPc.consumes (Function.update_of_ne hut ..)).trans ?_
      exact Bool.eq_false_iff.mpr fun hu => hut (h.one.one u t hu hconsumes)
  have hnone (u : T) : ((s.goto t .out).pcs u).holds = false :=
    Bool.eq_false_iff.mpr fun hu => by
      have hu' := RingPc.consumes_of_holds hu
      rw [hother u] at hu'
      cases hu'
  subst hhand
  have hprefix : served <+: s.log := by simpa using h.isPrefix
  cases item with
  | none =>
    refine ⟨hsound, hone, fun hsome => absurd rfl hsome, h.isPrefix, fun _ => ?_, fun u hu => ?_⟩
    · refine h.idle fun u => ?_
      by_cases hut : u = t
      · rw [hut, hpc]
        rfl
      · exact h.one.holds_ne hconsumes hut
    · rw [hnone u] at hu
      cases hu
  | some item =>
    have hlength : served.length + 1 = s.dequeuePos := h.holding t (by rw [hpc]; rfl)
    have hfollows := h.one.follows t
    rw [hpc] at hfollows
    obtain ⟨pos, hpos, hitem⟩ := hfollows
    obtain rfl : pos = served.length := by omega
    refine ⟨hsound, hone, fun _ => hother, ?_, fun _ => hlength, fun u hu => ?_⟩
    · obtain ⟨rest, hrest⟩ := hprefix
      have hitem' : (served ++ rest)[served.length]? = some item := hrest ▸ hitem
      rw [List.getElem?_append_right le_rfl, Nat.sub_self] at hitem'
      obtain ⟨tail, rfl⟩ : ∃ tail, rest = item :: tail := by
        cases rest with
        | nil => cases hitem'
        | cons head tail => exact ⟨tail, congrArg (· :: tail) (Option.some.inj hitem')⟩
      exact ⟨tail, by rw [List.append_assoc]; exact hrest⟩
    · rw [hnone u] at hu
      cases hu

omit [DecidableEq T] in
/-- The item at hand is served. -/
theorem serve (h : s.Served served hand) : s.Served (served ++ hand.toList) none where
  sound := h.sound
  one := h.one
  free hsome := absurd rfl hsome
  isPrefix := by simpa using h.isPrefix
  idle hnone := by
    rw [← h.idle hnone]
    simp
  holding u hu := by
    cases hand with
    | none => simpa using h.holding u hu
    | some item =>
      have hu' := RingPc.consumes_of_holds hu
      rw [h.free (by simp) u] at hu'
      cases hu'

omit [DecidableEq T] in
/-- **An empty answer is right**, when nobody enqueues. -/
theorem emptied (h : s.Served served hand) (hnone : ∀ u, (s.pcs u).enqueues = false) {pos : ℕ}
    (hpc : s.pcs t = .inspect pos) (hseq : s.sequence (s.index pos) < pos + 1) :
    s.dequeuePos = s.enqueuePos := by
  have hfollows := h.one.follows t
  rw [hpc] at hfollows
  obtain rfl : pos = s.dequeuePos := hfollows
  refine h.sound.empty (fun u => ?_) hseq
  cases hfills : (s.pcs u).fills? with
  | none => rfl
  | some p =>
    have hu := RingPc.enqueues_of_fills hfills
    rw [hnone u] at hu
    cases hu

omit [DecidableEq T] in
/-- Where nothing is in the queue, and nobody dequeues, everything was served. -/
theorem all (h : s.Served served none) (hfree : ∀ u, (s.pcs u).consumes = false)
    (hempty : s.dequeuePos = s.enqueuePos) : served = s.log := by
  have hlength := h.idle fun u => Bool.eq_false_iff.mpr fun hu => by
    have hu' := RingPc.consumes_of_holds hu
    rw [hfree u] at hu'
    cases hu'
  have hprefix : served <+: s.log := by simpa using h.isPrefix
  refine hprefix.eq_of_length ?_
  rw [h.sound.length, ← hempty, ← hlength]
  simp

omit [DecidableEq T] in
/-- An empty ring. -/
theorem empty {n : ℕ} (hn : 2 ≤ n) : ({ capacity := n } : TicketRing T R).Served [] none where
  sound := sound_empty hn
  one := ⟨fun t u ht => (by cases ht), fun t => trivial⟩
  free _ _ := rfl
  isPrefix := List.prefix_rfl
  idle _ := rfl
  holding _ h := by cases h

end Served

/-! ## When nobody enqueues -/

/-- **Nothing is in the queue, and nobody enqueues.** -/
structure Dry (s : TicketRing T R) : Prop where
  none : ∀ u, (s.pcs u).enqueues = false
  empty : s.dequeuePos = s.enqueuePos

/-- A step within the queue keeps it so, and gives no ticket. -/
theorem quiet_step (hnone : ∀ u, (s.pcs u).enqueues = false)
    (hstep : s.step (.step t spurious) = some s') :
    (∀ u, (s'.pcs u).enqueues = false) ∧ s'.enqueuePos = s.enqueuePos ∧ s'.log = s.log := by
  have hother {pc : RingPc R} (hpcs : s'.pcs = Function.update s.pcs t pc)
      (hpc : pc.enqueues = false) (u : T) : (s'.pcs u).enqueues = false := by
    rw [hpcs]
    by_cases hut : u = t
    · subst hut
      rw [Function.update_self, hpc]
    · rw [Function.update_of_ne hut, hnone u]
  cases moves_step hstep with
  | goes pc hpcs hlog henqueue _ _ henqueues =>
    refine ⟨hother hpcs (Bool.eq_false_iff.mpr fun hpc => ?_), henqueue, hlog⟩
    have ht := henqueues hpc
    rw [hnone t] at ht
    cases ht
  | claims item pos hfrom =>
    have ht : (s.pcs t).enqueues = true := by rw [hfrom]; rfl
    rw [hnone t] at ht
    cases ht
  | takes pos _ hpcs hlog henqueue => exact ⟨hother hpcs rfl, henqueue, hlog⟩

/-- A step within the queue leaves it dry. -/
theorem Dry.step (h : s.Dry) (hs : s.Sound) (hstep : s.step (.step t spurious) = some s') :
    s'.Dry := by
  obtain ⟨hnone, henqueue, -⟩ := quiet_step h.none hstep
  refine ⟨hnone, ?_⟩
  have hle := (hs.step hstep).le
  have hempty := h.empty
  cases moves_step hstep with
  | goes pc _ _ _ hpos => rw [hpos, henqueue, hempty]
  | claims item pos hfrom =>
    have ht := h.none t
    rw [hfrom] at ht
    cases ht
  | takes pos _ _ _ _ hpos =>
    rw [hpos, henqueue] at hle
    omega

/-- So does a return. -/
theorem Dry.leave (h : s.Dry) (hstep : s.step (.leave t) = some s') : s'.Dry := by
  refine ⟨fun u => ?_, ?_⟩
  · by_cases hut : u = t
    · rw [hut, pcs_leave hstep]
      rfl
    · rw [pcs_other hstep hut]
      exact h.none u
  · rw [TicketRing.step] at hstep
    split at hstep
    · obtain ⟨⟩ := hstep
      exact h.empty
    · obtain ⟨⟩ := hstep
      exact h.empty
    · cases hstep

/-- **A dequeue that finds nothing** is right when nobody enqueues. -/
theorem Served.dry (h : s.Served served hand) (hnone : ∀ u, (s.pcs u).enqueues = false)
    (hstep : s.step (.step t spurious) = some s') (hpc : s'.pcs t = .dequeued none) : s'.Dry := by
  obtain ⟨hnone', henqueue, -⟩ := quiet_step hnone hstep
  refine ⟨hnone', ?_⟩
  cases moves_step hstep with
  | goes pc hpcs _ _ hpos _ _ _ _ _ hempty =>
    rw [hpcs, Function.update_self] at hpc
    obtain ⟨pos, hinspect, hseq⟩ := hempty hpc
    rw [hpos, henqueue, h.emptied hnone hinspect hseq]
  | claims item pos _ hpcs =>
    rw [hpcs, Function.update_self] at hpc
    cases hpc
  | takes pos _ hpcs =>
    rw [hpcs, Function.update_self] at hpc
    cases hpc

/-- A dequeue that finds nothing has looked at its slot. -/
theorem inspects_of_dequeued (hstep : s.step (.step t spurious) = some s')
    (hpc : s'.pcs t = .dequeued none) :
    ∃ pos, s.pcs t = .inspect pos ∧ s.sequence (s.index pos) < pos + 1 := by
  cases moves_step hstep with
  | goes pc hpcs _ _ _ _ _ _ _ _ hempty =>
    rw [hpcs, Function.update_self] at hpc
    exact hempty hpc
  | claims item pos _ hpcs =>
    rw [hpcs, Function.update_self] at hpc
    cases hpc
  | takes pos _ hpcs =>
    rw [hpcs, Function.update_self] at hpc
    cases hpc

/-! ## The order of the calls -/

/-- **The items carry the number of their call**: in the log those of one thread are in order, and
what it is about to enqueue comes behind them. -/
structure Ordered (s : TicketRing T R) (tag : R → T × ℕ) (called : T → ℕ) (waiting : T → Option R) :
    Prop where
  log : s.log.Pairwise fun x y => (tag x).1 = (tag y).1 → (tag x).2 < (tag y).2
  below : ∀ x ∈ s.log, (tag x).2 < called (tag x).1
  pending : ∀ t x, waiting t = some x ∨ (s.pcs t).offers? = some x → (tag x).1 = t ∧
    (tag x).2 < called t ∧ ∀ y ∈ s.log, (tag y).1 = t → (tag y).2 < (tag x).2
  apart : ∀ t, waiting t ≠ none → (s.pcs t).offers? = none

namespace Ordered

variable {tag : R → T × ℕ} {called : T → ℕ} {waiting : T → Option R}

omit [DecidableEq T] in
/-- No item is twice in the log. -/
theorem nodup (h : s.Ordered tag called waiting) : s.log.Nodup :=
  h.log.imp fun hxy hsame => by
    subst hsame
    exact absurd (hxy rfl) (Nat.lt_irrefl _)

/-- A step that offers nothing new. -/
theorem keeps (h : s.Ordered tag called waiting) {pc : RingPc R}
    (hpcs : s'.pcs = Function.update s.pcs t pc) (hlog : s'.log = s.log)
    (hoffers : pc.offers? = none ∨ pc.offers? = (s.pcs t).offers?) :
    s'.Ordered tag called waiting := by
  have hold (u : T) : (s'.pcs u).offers? = none ∨ (s'.pcs u).offers? = (s.pcs u).offers? := by
    rw [hpcs]
    by_cases hut : u = t
    · subst hut
      rwa [Function.update_self]
    · rw [Function.update_of_ne hut]
      exact .inr rfl
  refine ⟨hlog ▸ h.log, hlog ▸ h.below, fun u x hx => ?_, fun u hu => ?_⟩
  · rw [hlog]
    refine h.pending u x (hx.imp_right fun hx => ?_)
    rcases hold u with hnone | hsame
    · rw [hnone] at hx
      cases hx
    · rw [← hsame, hx]
  · rcases hold u with hnone | hsame
    · exact hnone
    · rw [hsame, h.apart u hu]

/-- **A step within the queue.** -/
theorem step (h : s.Ordered tag called waiting) (hstep : s.step (.step t spurious) = some s') :
    s'.Ordered tag called waiting := by
  cases moves_step hstep with
  | goes pc hpcs hlog _ _ hoffers => exact h.keeps hpcs hlog hoffers
  | takes pos _ hpcs hlog => exact h.keeps hpcs hlog (.inl rfl)
  | claims item pos hfrom hpcs hlog =>
    have hoffer : (s.pcs t).offers? = some item := by rw [hfrom]; rfl
    obtain ⟨hthread, hcalled, hlast⟩ := h.pending t item (.inr hoffer)
    have hself : (s'.pcs t).offers? = none := by rw [hpcs, Function.update_self]; rfl
    have hwaiting : waiting t = none := by
      by_contra hsome
      have hnone := h.apart t hsome
      rw [hoffer] at hnone
      cases hnone
    refine ⟨?_, fun x hx => ?_, fun u x hx => ?_, fun u hu => ?_⟩
    · rw [hlog, List.pairwise_append]
      refine ⟨h.log, List.pairwise_singleton .., fun x hx y hy hxy => ?_⟩
      obtain rfl := List.mem_singleton.mp hy
      exact hlast x hx (hxy.trans hthread)
    · rw [hlog] at hx
      rcases List.mem_append.mp hx with hx | hx
      · exact h.below x hx
      · rw [List.mem_singleton.mp hx, hthread]
        exact hcalled
    · have hut : u ≠ t := by
        rintro rfl
        rcases hx with hx | hx
        · rw [hwaiting] at hx
          cases hx
        · rw [hself] at hx
          cases hx
      have hx' : waiting u = some x ∨ (s.pcs u).offers? = some x := by
        rwa [hpcs, Function.update_of_ne hut] at hx
      obtain ⟨hxu, hxcalled, hxlast⟩ := h.pending u x hx'
      refine ⟨hxu, hxcalled, fun y hy hyu => ?_⟩
      rw [hlog] at hy
      rcases List.mem_append.mp hy with hy | hy
      · exact hxlast y hy hyu
      · rw [List.mem_singleton.mp hy] at hyu
        exact absurd (hyu.symm.trans hthread) hut
    · by_cases hut : u = t
      · rw [hut]
        exact hself
      · rw [hpcs, Function.update_of_ne hut]
        exact h.apart u hu

/-- A thread that is not in the queue calls: the item gets the next number. -/
theorem call (h : s.Ordered tag called waiting) {item : R} (hoffers : (s.pcs t).offers? = none)
    (hitem : tag item = (t, called t)) :
    s.Ordered tag (Function.update called t (called t + 1))
      (Function.update waiting t (some item)) := by
  have hle (u : T) : called u ≤ Function.update called t (called t + 1) u := by
    by_cases hut : u = t
    · subst hut
      rw [Function.update_self]
      exact Nat.le_succ _
    · rw [Function.update_of_ne hut]
  refine ⟨h.log, fun x hx => (h.below x hx).trans_le (hle _), fun u x hx => ?_, fun u hu => ?_⟩
  · by_cases hut : u = t
    · subst hut
      rw [Function.update_self, hoffers] at hx
      obtain rfl : item = x := by
        rcases hx with hx | hx
        · exact Option.some.inj hx
        · cases hx
      rw [hitem, Function.update_self]
      refine ⟨rfl, Nat.lt_succ_self _, fun y hy hyu => ?_⟩
      have hbelow := h.below y hy
      rwa [hyu] at hbelow
    · rw [Function.update_of_ne hut] at hx
      obtain ⟨hxu, hcalled, hlast⟩ := h.pending u x hx
      exact ⟨hxu, hcalled.trans_le (hle u), hlast⟩
  · by_cases hut : u = t
    · rw [hut]
      exact hoffers
    · rw [Function.update_of_ne hut] at hu
      exact h.apart u hu

/-- The call gives its item up. -/
theorem drop (h : s.Ordered tag called waiting) :
    s.Ordered tag called (Function.update waiting t none) := by
  have hold {u : T} {x : R} (hx : Function.update waiting t none u = some x) :
      waiting u = some x := by
    by_cases hut : u = t
    · subst hut
      rw [Function.update_self] at hx
      cases hx
    · rwa [Function.update_of_ne hut] at hx
  refine ⟨h.log, h.below, fun u x hx => h.pending u x (hx.imp_left hold), fun u hu => ?_⟩
  obtain ⟨x, hx⟩ := Option.ne_none_iff_exists'.mp hu
  exact h.apart u (by rw [hold hx]; simp)

/-- It begins to enqueue it. -/
theorem enqueue (h : s.Ordered tag called waiting) {item : R} (hitem : waiting t = some item)
    (hstep : s.step (.enqueue t item) = some s') :
    s'.Ordered tag called (Function.update waiting t none) := by
  obtain ⟨-, rfl⟩ := guarded hstep
  refine ⟨h.log, h.below, fun u x hx => ?_, fun u hu => ?_⟩
  · by_cases hut : u = t
    · subst hut
      rw [Function.update_self] at hx
      obtain rfl : item = x := by
        rcases hx with hx | hx
        · cases hx
        · have hx' : (Function.update s.pcs u (.enqueue item) u).offers? = some x := hx
          rw [Function.update_self] at hx'
          exact Option.some.inj hx'
      exact h.pending u item (.inl hitem)
    · refine h.pending u x (hx.imp (fun hx => ?_) fun hx => ?_)
      · rwa [Function.update_of_ne hut] at hx
      · have hx' : (Function.update s.pcs t (.enqueue item) u).offers? = some x := hx
        rwa [Function.update_of_ne hut] at hx'
  · by_cases hut : u = t
    · subst hut
      rw [Function.update_self] at hu
      exact absurd rfl hu
    · rw [Function.update_of_ne hut] at hu
      refine (congrArg RingPc.offers? (Function.update_of_ne hut ..)).trans ?_
      exact h.apart u hu

/-- A thread comes to dequeue, or returns. -/
theorem elsewhere (h : s.Ordered tag called waiting) {a : RingLabel T R}
    (ha : (∃ t, a = .dequeue t) ∨ ∃ t, a = .leave t) (hstep : s.step a = some s') :
    s'.Ordered tag called waiting := by
  rcases ha with ⟨t, rfl⟩ | ⟨t, rfl⟩
  · obtain ⟨-, rfl⟩ := guarded hstep
    exact h.keeps rfl rfl (.inl rfl)
  · rw [TicketRing.step] at hstep
    split at hstep
    · obtain ⟨⟩ := hstep
      exact h.keeps rfl rfl (.inl rfl)
    · obtain ⟨⟩ := hstep
      exact h.keeps rfl rfl (.inl rfl)
    · cases hstep

omit [DecidableEq T] in
/-- An empty ring. -/
theorem empty {n : ℕ} :
    ({ capacity := n } : TicketRing T R).Ordered tag (fun _ => 0) (fun _ => none) where
  log := List.Pairwise.nil
  below x hx := by cases hx
  pending t x hx := by
    rcases hx with hx | hx
    · cases hx
    · cases hx
  apart t _ := rfl

end Ordered

end TicketRing

end Machinery
