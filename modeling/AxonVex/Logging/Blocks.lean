import AxonVex.Logging.Written

/-!
# Logging/Blocks — the blocks of the message pool

    log ──block──▸ message_queue_ ──▸ processingLoop ──▸ write, output by output ──▸ block

A block is in use by one message at a time: it is held by a thread in its `log`, or the queue or the
processing thread has the message.  So what an output is given is the message as it was logged.
-/

namespace AxonVex

open Machinery

namespace MessageLogger

open Logging

variable {s s' : MessageLogger} {h : History} {a : Logging.Label} {t u : LogThread}

/-- The pointer that a thread holds in its `log`. -/
def held (s : MessageLogger) (t : LogThread) : Option Pointer :=
  match s.logging t with
  | .initialize_ p => some p
  | .deallocate p => some p
  | .enqueues => (s.message_queue_.pcs t).carries?
  | _ => none

/-- The pointer is in the queue, or the processing thread has it. -/
def Queued (s : MessageLogger) (h : History) (p : Pointer) : Prop :=
  p ∈ s.message_queue_.log.drop h.processed.length

/-- The block of the pointer is in use for its message. -/
def Live (s : MessageLogger) (h : History) (p : Pointer) : Prop :=
  (∃ t, s.held t = some p) ∨ s.Queued h p

/-- The message has been written into the block. -/
def Filled (s : MessageLogger) (h : History) (p : Pointer) : Prop :=
  (∃ t, s.held t = some p ∧ s.logging t ≠ .initialize_ p) ∨ s.Queued h p

/-- **The custody of the blocks.** -/
structure Custody (s : MessageLogger) (h : History) : Prop where
  fresh : ∀ t p, s.held t = some p → p.call.thread = t ∧ p ∉ s.message_queue_.log
  allocated : ∀ p, s.Live h p → s.allocated p.block = true
  distinct : ∀ p p', s.Live h p → s.Live h p' → p.block = p'.block → p = p'
  content : ∀ p, s.Filled h p → s.memory p.block = some p.call.message

theorem Filled.live {p : Pointer} (hp : s.Filled h p) : s.Live h p :=
  hp.imp_left fun ⟨t, ht, _⟩ => ⟨t, ht⟩

/-- **A step that takes no new block into use**, and writes none that is. -/
theorem Custody.keeps (hc : s.Custody h) {h' : History}
    (hfresh : ∀ t p, s'.held t = some p → p.call.thread = t ∧ p ∉ s'.message_queue_.log)
    (hlive : ∀ p, s'.Live h' p → s.Live h p) (hfilled : ∀ p, s'.Filled h' p → s.Filled h p)
    (hallocated : ∀ p, s'.Live h' p → s'.allocated p.block = s.allocated p.block)
    (hmemory : s'.memory = s.memory) : s'.Custody h' where
  fresh := hfresh
  allocated p hp := (hallocated p hp).trans (hc.allocated p (hlive p hp))
  distinct p p' hp hp' := hc.distinct p p' (hlive p hp) (hlive p' hp')
  content p hp := (congrFun hmemory _).trans (hc.content p (hfilled p hp))

/-- Nothing that matters to the blocks changes. -/
theorem Custody.congr (hc : s.Custody h) {h' : History} (hheld : s'.held = s.held)
    (hlogging : ∀ t p, s.held t = some p → s'.logging t ≠ .initialize_ p →
      s.logging t ≠ .initialize_ p)
    (hlog : s'.message_queue_.log = s.message_queue_.log) (hallocated : s'.allocated = s.allocated)
    (hmemory : s'.memory = s.memory) (hprocessed : h'.processed = h.processed) :
    s'.Custody h' := by
  have hqueued (p : Pointer) : s'.Queued h' p ↔ s.Queued h p := by
    rw [Queued, Queued, hlog, hprocessed]
  refine hc.keeps (fun t p ht => ?_) (fun p hp => ?_) (fun p hp => ?_)
    (fun p _ => by rw [hallocated]) hmemory
  · rw [hlog]
    exact hc.fresh t p (hheld ▸ ht)
  · exact hp.imp (fun ⟨t, ht⟩ => ⟨t, hheld ▸ ht⟩) (hqueued p).mp
  · refine hp.imp (fun ⟨t, ht, hne⟩ => ?_) (hqueued p).mp
    have ht' : s.held t = some p := hheld ▸ ht
    exact ⟨t, ht', hlogging t p ht' hne⟩

/-- What a thread holds is told by its own place. -/
theorem held_congr (hlogging : s'.logging u = s.logging u)
    (hpcs : s'.message_queue_.pcs u = s.message_queue_.pcs u) : s'.held u = s.held u := by
  rw [held, held, hlogging, hpcs]

/-- A thread goes on in `log`, and holds what it did. -/
theorem Custody.goto (hc : s.Custody h) {h' : History} {pc : LogPc}
    (hlogging : s'.logging = Function.update s.logging t pc)
    (hpcs : ∀ u, u ≠ t → s'.message_queue_.pcs u = s.message_queue_.pcs u)
    (hheld : s'.held t = s.held t) (hinit : ∀ p, s.logging t ≠ .initialize_ p)
    (hlog : s'.message_queue_.log = s.message_queue_.log) (hallocated : s'.allocated = s.allocated)
    (hmemory : s'.memory = s.memory) (hprocessed : h'.processed = h.processed) :
    s'.Custody h' := by
  refine hc.congr ?_ (fun u p _ hne => ?_) hlog hallocated hmemory hprocessed
  · funext u
    by_cases hut : u = t
    · rw [hut, hheld]
    · exact held_congr (by rw [hlogging, Function.update_of_ne hut]) (hpcs u hut)
  · by_cases hut : u = t
    · exact hut ▸ hinit p
    · rwa [hlogging, Function.update_of_ne hut] at hne

/-- A thread comes to dequeue, or its dequeue returns. -/
theorem Custody.elsewhere (hc : s.Custody h) {h' : History} {e : RingLabel LogThread Pointer}
    (hstep : s.message_queue_.step e = some s'.message_queue_)
    (hlog : s'.message_queue_.log = s.message_queue_.log)
    (hwas : (s.message_queue_.pcs e.thread).carries? = none)
    (his : (s'.message_queue_.pcs e.thread).carries? = none) (hlogging : s'.logging = s.logging)
    (hallocated : s'.allocated = s.allocated) (hmemory : s'.memory = s.memory)
    (hprocessed : h'.processed = h.processed) : s'.Custody h' := by
  refine hc.congr ?_ (fun u p _ hne => hlogging ▸ hne) hlog hallocated hmemory hprocessed
  funext u
  by_cases hut : u = e.thread
  · rw [held, held, hlogging, hut, hwas, his]
  · exact held_congr (by rw [hlogging]) (TicketRing.pcs_other hstep hut)

/-- **A block comes into use**: no message had it. -/
theorem Custody.allocate (hc : s.Custody h) {message : LogMessage} {b : ℕ}
    (ho : s.message_queue_.Ordered tag s.called s.waiting)
    (hat : s.logging t = .allocate message) (hunused : s.allocated b = false) :
    Custody { s.goto t (.initialize_ ⟨b, t, s.called t, message⟩) with
      allocated := Function.update s.allocated b true
      called := Function.update s.called t (s.called t + 1) } h := by
  let p₀ : Pointer := ⟨b, t, s.called t, message⟩
  let s' : MessageLogger := { s.goto t (.initialize_ p₀) with
    allocated := Function.update s.allocated b true
    called := Function.update s.called t (s.called t + 1) }
  have hself : s'.logging t = .initialize_ p₀ := Function.update_self ..
  have hheld : s'.held t = some p₀ := by rw [held, hself]
  have hother (u : LogThread) (hut : u ≠ t) : s'.held u = s.held u :=
    held_congr (Function.update_of_ne hut ..) rfl
  have hlive (p : Pointer) (hp : s'.Live h p) : p = p₀ ∨ s.Live h p := by
    rcases hp with ⟨u, hu⟩ | hq
    · by_cases hut : u = t
      · rw [hut, hheld] at hu
        exact .inl (Option.some.inj hu).symm
      · exact .inr (.inl ⟨u, hother u hut ▸ hu⟩)
    · exact .inr (.inr hq)
  have hapart (p : Pointer) (hp : s.Live h p) : p.block ≠ b := by
    rintro rfl
    rw [hc.allocated p hp] at hunused
    cases hunused
  refine ⟨fun u p hu => ?_, fun p hp => ?_, fun p p' hp hp' hsame => ?_, fun p hp => ?_⟩
  · by_cases hut : u = t
    · subst hut
      obtain rfl := Option.some.inj (hheld.symm.trans hu)
      exact ⟨rfl, fun hmem => absurd (ho.below p₀ hmem) (Nat.lt_irrefl _)⟩
    · exact hc.fresh u p (hother u hut ▸ hu)
  · change Function.update s.allocated b true p.block = true
    rcases hlive p hp with rfl | hp
    · exact Function.update_self ..
    · rw [Function.update_of_ne (hapart p hp), hc.allocated p hp]
  · rcases hlive p hp with rfl | hp
    · rcases hlive p' hp' with rfl | hp'
      · rfl
      · exact absurd hsame.symm (hapart p' hp')
    · rcases hlive p' hp' with rfl | hp'
      · exact absurd hsame (hapart p hp)
      · exact hc.distinct p p' hp hp' hsame
  · refine hc.content p (hp.imp_left fun ⟨u, hu, hne⟩ => ?_)
    have hut : u ≠ t := by
      rintro rfl
      obtain rfl := Option.some.inj (hheld.symm.trans hu)
      exact hne hself
    refine ⟨u, hother u hut ▸ hu, fun hsame => hne ?_⟩
    exact (Function.update_of_ne hut ..).trans hsame

/-- **The message is written into its block**, and no other message is in it. -/
theorem Custody.enqueue (hc : s.Custody h) {p : Pointer} {q : TicketRing LogThread Pointer}
    (hat : s.logging t = .initialize_ p) (hstep : s.message_queue_.step (.enqueue t p) = some q) :
    Custody { s.goto t .enqueues with
      message_queue_ := q
      memory := Function.update s.memory p.block (some p.call.message) } h := by
  let s' : MessageLogger := { s.goto t .enqueues with
    message_queue_ := q
    memory := Function.update s.memory p.block (some p.call.message) }
  have hself : s'.logging t = .enqueues := Function.update_self ..
  have hpcs : q.pcs t = .enqueue p := (TicketRing.pcs_enqueue hstep).2
  have hlog : q.log = s.message_queue_.log := TicketRing.log_call (.inl ⟨_, _, rfl⟩) hstep
  have hmine : s.held t = some p := by rw [held, hat]
  have hheld : s'.held = s.held := by
    funext u
    by_cases hut : u = t
    · subst hut
      rw [hmine, held, hself]
      exact congrArg RingPc.carries? hpcs
    · exact held_congr (Function.update_of_ne hut ..) (TicketRing.pcs_other hstep hut)
  have hlive (p' : Pointer) (hp' : s'.Live h p') : s.Live h p' :=
    hp'.imp (fun ⟨u, hu⟩ => ⟨u, hheld ▸ hu⟩) fun hq => by
      rw [Queued] at hq ⊢
      rwa [← hlog]
  refine ⟨fun u p' hu => ?_, fun p' hp' => hc.allocated p' (hlive p' hp'),
    fun p' p'' hp' hp'' => hc.distinct p' p'' (hlive p' hp') (hlive p'' hp''), fun p' hp' => ?_⟩
  · change _ ∧ p' ∉ q.log
    rw [hlog]
    exact hc.fresh u p' (hheld ▸ hu)
  · change Function.update s.memory p.block (some p.call.message) p'.block = some p'.call.message
    by_cases hsame : p'.block = p.block
    · obtain rfl := hc.distinct p' p (hlive p' hp'.live) (.inl ⟨t, hmine⟩) hsame
      exact Function.update_self ..
    · rw [Function.update_of_ne hsame]
      refine hc.content p' ?_
      rcases hp' with ⟨u, hu, hne⟩ | hq
      · have hu' : s.held u = some p' := hheld ▸ hu
        have hut : u ≠ t := by
          rintro rfl
          obtain rfl := Option.some.inj (hmine.symm.trans hu')
          exact hsame rfl
        exact .inl ⟨u, hu', fun hinit => hne ((Function.update_of_ne hut ..).trans hinit)⟩
      · refine .inr ?_
        rw [Queued] at hq ⊢
        rwa [← hlog]

/-- **A step within the queue**: a message goes from its thread into the log. -/
theorem Custody.queue (hc : s.Custody h) (hal : s.Aligned) {spurious : Bool}
    {q : TicketRing LogThread Pointer} (hprocessed : h.processed.length ≤ s.message_queue_.log.length)
    (hstep : s.message_queue_.step (.step t spurious) = some q) :
    Custody { s with message_queue_ := q } h := by
  let s' : MessageLogger := { s with message_queue_ := q }
  have hother (u : LogThread) (hut : u ≠ t) : s'.held u = s.held u :=
    held_congr rfl (TicketRing.pcs_other hstep hut)
  -- the thread holds what it did, or nothing
  have hmine (p : Pointer) (hp : s'.held t = some p) : s.held t = some p := by
    rw [held] at hp ⊢
    change (match s.logging t with
      | .initialize_ p => some p
      | .deallocate p => some p
      | .enqueues => (q.pcs t).carries?
      | _ => none) = some p at hp
    cases hpc : s.logging t with
    | enqueues =>
      rw [hpc] at hp
      rcases TicketRing.carries_step hstep with hnone | hsame
      · exact absurd (hnone.symm.trans hp) (by simp)
      · exact hsame.symm.trans hp
    | _ =>
      rw [hpc] at hp
      exact hp
  have hholder (u : LogThread) (p : Pointer) (hu : s'.held u = some p) : s.held u = some p := by
    by_cases hut : u = t
    · exact hut ▸ hmine p (hut ▸ hu)
    · exact hother u hut ▸ hu
  rcases TicketRing.log_cases hstep with hlog | ⟨item, hcarries, hgone, hlog⟩
  · have hqueued (p : Pointer) (hq : s'.Queued h p) : s.Queued h p := by
      rw [Queued] at hq ⊢
      rwa [← hlog]
    refine hc.keeps (fun u p hu => ?_) (fun p hp => ?_) (fun p hp => ?_) (fun _ _ => rfl) rfl
    · exact hlog ▸ hc.fresh u p (hholder u p hu)
    · exact hp.imp (fun ⟨u, hu⟩ => ⟨u, hholder u p hu⟩) (hqueued p)
    · exact hp.imp (fun ⟨u, hu, hne⟩ => ⟨u, hholder u p hu, hne⟩) (hqueued p)
  · have hpc : s.logging t = .enqueues := by
      by_contra hne
      rcases hal t hne with hout | hconsumes
      · rw [RingPc.eq_out hout] at hcarries
        cases hcarries
      · revert hcarries hconsumes
        cases s.message_queue_.pcs t <;> simp [RingPc.carries?, RingPc.consumes]
    have hheld : s.held t = some item := by rw [held, hpc, hcarries]
    have hnone : s'.held t = none := by
      rw [held]
      change (match s.logging t with
        | .initialize_ p => some p
        | .deallocate p => some p
        | .enqueues => (q.pcs t).carries?
        | _ => none) = none
      rw [hpc, hgone]
    have hne (u : LogThread) (p : Pointer) (hu : s'.held u = some p) : u ≠ t := by
      rintro rfl
      rw [hnone] at hu
      cases hu
    have hqueued (p : Pointer) (hq : s'.Queued h p) : s.Queued h p ∨ p = item := by
      rw [Queued] at hq ⊢
      change p ∈ q.log.drop h.processed.length at hq
      rw [hlog, List.drop_append_of_le_length hprocessed, List.mem_append,
        List.mem_singleton] at hq
      exact hq
    have hfilled : s.Filled h item := .inl ⟨t, hheld, by rw [hpc]; simp⟩
    refine hc.keeps (fun u p hu => ?_) (fun p hp => ?_) (fun p hp => ?_) (fun _ _ => rfl) rfl
    · obtain ⟨hthread, hmem⟩ := hc.fresh u p (hholder u p hu)
      refine ⟨hthread, fun hnew => ?_⟩
      change p ∈ q.log at hnew
      rw [hlog, List.mem_append, List.mem_singleton] at hnew
      rcases hnew with hold | rfl
      · exact hmem hold
      · exact hne u p hu (hthread.symm.trans (hc.fresh t p hheld).1)
    · rcases hp with ⟨u, hu⟩ | hq
      · exact .inl ⟨u, hholder u p hu⟩
      · rcases hqueued p hq with hq | rfl
        · exact .inr hq
        · exact hfilled.live
    · rcases hp with ⟨u, hu, hinit⟩ | hq
      · exact .inl ⟨u, hholder u p hu, hinit⟩
      · rcases hqueued p hq with hq | rfl
        · exact .inr hq
        · exact hfilled

/-- **A block goes out of use**, and its message is nowhere else. -/
theorem Custody.release (hc : s.Custody h) {h' : History} {p : Pointer} (hp : s.Live h p)
    (hgone : ¬ s'.Live h' p) (hheld : ∀ u p', s'.held u = some p' → s.held u = some p')
    (hlogging : ∀ u p', s'.held u = some p' → s'.logging u = s.logging u)
    (hqueued : ∀ p', s'.Queued h' p' → s.Queued h p')
    (hlog : s'.message_queue_.log = s.message_queue_.log)
    (hallocated : s'.allocated = Function.update s.allocated p.block false)
    (hmemory : s'.memory = s.memory) : s'.Custody h' := by
  have hlive (p' : Pointer) (hp' : s'.Live h' p') : s.Live h p' :=
    hp'.imp (fun ⟨u, hu⟩ => ⟨u, hheld u p' hu⟩) (hqueued p')
  refine hc.keeps (fun u p' hu => ?_) hlive (fun p' hp' => ?_) (fun p' hp' => ?_) hmemory
  · rw [hlog]
    exact hc.fresh u p' (hheld u p' hu)
  · refine hp'.imp (fun ⟨u, hu, hne⟩ => ⟨u, hheld u p' hu, ?_⟩) (hqueued p')
    rwa [← hlogging u p' hu]
  · have hne : p'.block ≠ p.block := fun hsame => by
      obtain rfl := hc.distinct p' p (hlive p' hp') hp hsame
      exact hgone hp'
    rw [hallocated, Function.update_of_ne hne]

/-- A message that the queue did not take. -/
theorem Custody.deallocate (hc : s.Custody h) {p : Pointer} (hat : s.logging t = .deallocate p) :
    Custody { s.goto t .drop with allocated := Function.update s.allocated p.block false } h := by
  let s' : MessageLogger :=
    { s.goto t .drop with allocated := Function.update s.allocated p.block false }
  have hmine : s.held t = some p := by rw [held, hat]
  have hnone : s'.held t = none := by
    have hself : s'.logging t = .drop := Function.update_self ..
    rw [held, hself]
  have hne (u : LogThread) (p' : Pointer) (hu : s'.held u = some p') : u ≠ t := by
    rintro rfl
    rw [hnone] at hu
    cases hu
  have hother (u : LogThread) (p' : Pointer) (hu : s'.held u = some p') : s.held u = some p' := by
    have hheld : s'.held u = s.held u := held_congr (Function.update_of_ne (hne u p' hu) ..) rfl
    rw [← hheld, hu]
  refine hc.release (.inl ⟨t, hmine⟩) ?_ hother
    (fun u p' hu => Function.update_of_ne (hne u p' hu) ..) (fun _ hq => hq) rfl rfl rfl
  rintro (⟨u, hu⟩ | hq)
  · exact hne u p hu ((hc.fresh u p (hother u p hu)).1.symm.trans (hc.fresh t p hmine).1)
  · exact (hc.fresh t p hmine).2 (List.mem_of_mem_drop hq)

/-- A message that was processed. -/
theorem Custody.free (hc : s.Custody h) {h' : History} {p : Pointer}
    (hnodup : s.message_queue_.log.Nodup) (hhand : h.processed ++ [p] <+: s.message_queue_.log)
    (hprocessed : h'.processed = h.processed ++ [p]) (hlogging : s'.logging = s.logging)
    (hqueue : s'.message_queue_ = s.message_queue_)
    (hallocated : s'.allocated = Function.update s.allocated p.block false)
    (hmemory : s'.memory = s.memory) : s'.Custody h' := by
  obtain ⟨rest, hrest⟩ := hhand
  have hbefore : s.message_queue_.log.drop h.processed.length = p :: rest := by
    rw [← hrest]
    simp
  have hafter : s'.message_queue_.log.drop h'.processed.length = rest := by
    rw [hqueue, hprocessed, ← hrest]
    simp
  have hheld (u : LogThread) : s'.held u = s.held u := held_congr (by rw [hlogging]) (by rw [hqueue])
  have hmem : p ∈ s.message_queue_.log := by
    rw [← hrest]
    simp
  refine hc.release (p := p) (.inr ?_) ?_ (fun u p' hu => hheld u ▸ hu) (fun u _ _ => by rw [hlogging])
    (fun p' hq => ?_) (by rw [hqueue]) hallocated hmemory
  · rw [Queued, hbefore]
    exact List.mem_cons_self ..
  · rintro (⟨u, hu⟩ | hq)
    · exact (hc.fresh u p (hheld u ▸ hu)).2 hmem
    · rw [Queued, hafter] at hq
      rw [← hrest, List.append_assoc] at hnodup
      have hcons : (p :: rest).Nodup := (List.nodup_append.mp hnodup).2.1
      exact (List.nodup_cons.mp hcons).1 hq
  · rw [Queued, hafter] at hq
    rw [Queued, hbefore]
    exact List.mem_cons_of_mem p hq

theorem Custody.step (hc : s.Custody h) (ho : s.message_queue_.Ordered tag s.called s.waiting)
    (hal : s.Aligned) (hserved : s.message_queue_.Served h.processed s.hand)
    (hstep : s.Steps a s') : s'.Custody (record s a s' h) := by
  have hkeep (hprocessed : (record s a s' h).processed = h.processed)
      (hlogging : s'.logging = s.logging) (hqueue : s'.message_queue_ = s.message_queue_)
      (hallocated : s'.allocated = s.allocated) (hmemory : s'.memory = s.memory) :
      s'.Custody (record s a s' h) :=
    hc.congr (funext fun u => held_congr (by rw [hlogging]) (by rw [hqueue]))
      (fun u p _ hne => hlogging ▸ hne) (by rw [hqueue]) hallocated hmemory hprocessed
  cases hstep with
  | filtered may below => exact hkeep (record_processed (by simp)) rfl rfl rfl rfl
  | @log t message may passes =>
    have hout : s.logging t = .out := by
      rw [mayLog, quiet, Bool.and_eq_true, Bool.and_eq_true] at may
      exact of_decide_eq_true may.1.1
    exact hc.goto (t := t) rfl (fun _ _ => rfl) (by simp [held, MessageLogger.goto, hout])
      (by simp [hout]) rfl rfl rfl (record_processed (by simp))
  | @exhausted t message at_ =>
    exact hc.goto (t := t) rfl (fun _ _ => rfl) (by simp [held, MessageLogger.goto, at_])
      (by simp [at_]) rfl rfl rfl (record_processed (by simp))
  | @allocate t message b at_ unused => exact hc.allocate ho at_ unused
  | @enqueue t p q at_ step =>
    rw [record_step (by simp [at_])]
    exact hc.enqueue at_ step
  | @deallocate t p at_ =>
    rw [record_step (by simp [at_])]
    exact hc.deallocate at_
  | @drop t at_ =>
    exact hc.goto (t := t) rfl (fun _ _ => rfl) (by simp [held, MessageLogger.goto, at_])
      (by simp [at_]) rfl rfl rfl (record_processed (by simp))
  | @count t c at_ =>
    exact hc.goto (t := t) rfl (fun _ _ => rfl) (by simp [held, MessageLogger.goto, at_])
      (by simp [at_]) rfl rfl rfl (record_processed (by simp))
  | queue step => exact hc.queue hal ((List.prefix_append ..).trans hserved.isPrefix).length_le step
  | @enqueued t p accepted q at_ step =>
    have hlogging := hal.enqueues at_
    refine hc.goto (t := t) rfl (fun u hut => TicketRing.pcs_other step hut) ?_ (by simp [hlogging])
      (TicketRing.log_call (.inr (.inr ⟨_, rfl⟩)) step) rfl rfl (record_processed (by simp))
    cases accepted <;> simp [held, MessageLogger.goto, hlogging, at_, RingPc.carries?]
  | @dequeued t m item q at_ loop step =>
    refine hc.elsewhere step (TicketRing.log_call (.inr (.inr ⟨_, rfl⟩)) step) ?_ ?_ rfl rfl rfl rfl
    · exact congrArg RingPc.carries? at_
    · exact congrArg RingPc.carries? (TicketRing.pcs_leave step)
  | @poll m q at_ step =>
    refine hc.elsewhere step (TicketRing.log_call (.inr (.inl ⟨_, rfl⟩)) step) ?_ ?_ rfl rfl rfl
      (record_processed (by simp [at_]))
    · exact congrArg RingPc.carries? (TicketRing.pcs_dequeue step).1
    · exact congrArg RingPc.carries? (TicketRing.pcs_dequeue step).2
  | @free m p at_ =>
    have hhand : s.hand = some p := by simp [hand, at_]
    have hprefix := hserved.isPrefix
    rw [hhand] at hprefix
    exact hc.free ho.nodup hprefix (by simp only [record, at_]) rfl rfl rfl rfl
  | write at_ lt quiet => exact hkeep (record_processed (by simp [at_])) rfl rfl rfl rfl
  | processed at_ le => exact hkeep (record_processed (by simp [at_])) rfl rfl rfl rfl
  | test at_ => exact hkeep (record_processed (by simp [at_])) rfl rfl rfl rfl
  | _ => exact hkeep (record_processed (by simp)) rfl rfl rfl rfl

end MessageLogger

end AxonVex
