import AxonVex.Machinery.ServedRing
import AxonVex.Machinery.WorkerWaits
import AxonVex.Visualization.Telemetry

/-!
# Visualization/Delivery — what becomes of an accepted record

    publish ──running_?──enqueue──▸ queue ──▸ run: dequeue, dispatch … until running_ is cleared,
                                                   dequeue, dispatch … until nothing is found

Whatever the threads do, the records are dispatched in the order of the queue, each at most once,
and the frames of a channel are numbered without a gap (`inOrder_of_reachable`).  A record that has
been accepted can be left behind, though: a `publish` that has seen `running_` set may enqueue after
the egress thread has found the queue empty for the last time, and no `stop` looks at the queue
itself (`stop_leaves_record`).  In the runs in which the egress thread gives up only when no
`publish` is still enqueuing, every `stop` from outside leaves nothing behind (`delivers`).
-/

namespace AxonVex

open Machinery

/-- The frames of a channel, in the order in which they were dispatched. -/
def TelemetryBus.History.frames (h : TelemetryBus.History) (channel : String) :
    List TelemetryBus.TelemetryFrame :=
  (h.dispatched.map Prod.snd).filter fun frame => frame.channel = channel

namespace Telemetry

open TelemetryBus WorkerClass

/-- **What a step does.** -/
inductive Steps (s : Telemetry) : TelemetryBus.Label → Telemetry → Prop
  | life {a : WorkerLabel TelemetryBus.Call} {life : Workers TelemetryBus.Flag}
      (may : s.mayLive a = true) (step : bus.step s.life a = some life) :
      Steps s (.life a) { s with life := life, egress := s.egressAfter a }
  | publish {t : WorkerId} {record : TelemetryBus.Record} (free : s.free t = true) :
      Steps s (.publish t record) { s with
        publishing := Function.update s.publishing t (some ⟨record, t, s.published t⟩)
        published := Function.update s.published t (s.published t + 1) }
  | refused {t : WorkerId} {p : Publication} (publishing : s.publishing t = some p)
      (running : s.life.flags .running = false) :
      Steps s (.test t) { s with publishing := Function.update s.publishing t none }
  | enqueue {t : WorkerId} {p : Publication} {q : TicketRing WorkerId Publication}
      (publishing : s.publishing t = some p) (running : s.life.flags .running = true)
      (step : s.queue.step (.enqueue t p) = some q) :
      Steps s (.test t) { s with
        queue := q, publishing := Function.update s.publishing t none }
  | queue {t : WorkerId} {spurious : Bool} {q : TicketRing WorkerId Publication}
      (step : s.queue.step (.step t spurious) = some q) :
      Steps s (.queue t spurious) { s with queue := q }
  | enqueued {t : WorkerId} {p : Publication} {accepted : Bool}
      {q : TicketRing WorkerId Publication} (at_ : s.queue.pcs t = .enqueued p accepted)
      (step : s.queue.step (.leave t) = some q) : Steps s (.returns t) { s with queue := q }
  | dequeued {t : WorkerId} {item : Option Publication} {q : TicketRing WorkerId Publication}
      (at_ : s.queue.pcs t = .dequeued item) (step : s.queue.step (.leave t) = some q) :
      Steps s (.returns t) { s with queue := q, egress := item.elim .empty .dispatch }
  | poll {t : WorkerId} {q : TicketRing WorkerId Publication} (may : s.mayPoll t = true)
      (step : s.queue.step (.dequeue t) = some q) :
      Steps s (.poll t) { s with queue := q, egress := .dequeues }
  | dispatch {t : WorkerId} {p : Publication} (at_ : s.egress = .dispatch p)
      (turn : s.inTurn t = true) :
      Steps s (.dispatch t) { s with
        nextSeq_ := Function.update s.nextSeq_ p.channel (s.nextSeq_ p.channel + 1)
        egress := .callbacks }
  | callbacksReturn {t : WorkerId} (at_ : s.egress = .callbacks) (turn : s.inTurn t = true)
      (quiet : s.quiet t = true) : Steps s (.callbacksReturn t) { s with egress := .done }

variable {s s' : Telemetry} {a : TelemetryBus.Label} {t u : WorkerId}

theorem steps (h : s.step a = some s') : s.Steps a s' := by
  cases a with
  | life a =>
    obtain ⟨hmay, hlife⟩ := Option.ite_none_right_eq_some.mp h
    obtain ⟨life, hstep, rfl⟩ := Option.map_eq_some_iff.mp hlife
    exact .life hmay hstep
  | publish t record =>
    obtain ⟨hfree, rfl⟩ := guarded h
    exact .publish hfree
  | test t =>
    rw [step, test] at h
    split at h
    next => cases h
    next p hp =>
      split_ifs at h with hrunning
      · obtain ⟨q, hq, rfl⟩ := Option.map_eq_some_iff.mp h
        exact .enqueue hp hrunning hq
      · obtain ⟨⟩ := h
        exact .refused hp (Bool.eq_false_iff.mpr hrunning)
  | queue t spurious =>
    obtain ⟨q, hq, rfl⟩ := Option.map_eq_some_iff.mp h
    exact .queue hq
  | returns t =>
    rw [step, queueReturns] at h
    split at h
    next hpc =>
      obtain ⟨q, hq, rfl⟩ := Option.map_eq_some_iff.mp h
      exact .enqueued hpc hq
    next hpc =>
      obtain ⟨q, hq, rfl⟩ := Option.map_eq_some_iff.mp h
      exact .dequeued hpc hq
    next p hpc =>
      obtain ⟨q, hq, rfl⟩ := Option.map_eq_some_iff.mp h
      exact .dequeued hpc hq
    next => cases h
  | poll t =>
    obtain ⟨hmay, hsome⟩ := Option.ite_none_right_eq_some.mp h
    obtain ⟨q, hq, rfl⟩ := Option.map_eq_some_iff.mp hsome
    exact .poll hmay hq
  | dispatch t =>
    rw [step, Telemetry.dispatch] at h
    split at h
    next p hp =>
      split_ifs at h with hturn
      obtain ⟨⟩ := h
      exact .dispatch hp hturn
    next => cases h
  | callbacksReturn t =>
    obtain ⟨hand, rfl⟩ := guarded h
    simp only [Bool.and_eq_true, decide_eq_true_eq] at hand
    exact .callbacksReturn hand.2 hand.1.1 hand.1.2

/-! ## The egress thread

Only the worker dequeues, and between two turns nothing is at hand. -/

/-- The record that the egress thread is about to number. -/
def hand (s : Telemetry) : Option Publication :=
  match s.egress with
  | .dispatch p => some p
  | _ => none

/-- The thread is in a turn of the loop or in the last drain. -/
def Turns (s : Telemetry) (t : WorkerId) : Prop :=
  phase (s.life.threads t) = .turn ∨ phase (s.life.threads t) = .draining

/-- **The places of the egress thread fit together.** -/
structure Attended (s : Telemetry) : Prop where
  consumes : ∀ t, (s.queue.pcs t).consumes = true → s.inTurn t = true ∧ s.egress = .dequeues
  egress : s.egress ≠ .idle → ∃ t, s.Turns t

theorem inTurn_iff : s.inTurn t = true ↔
    s.life.threads t = .body [] ∨ s.life.threads t = .last [] := by
  simp [inTurn]

theorem turns_of_inTurn (h : s.inTurn t = true) : s.Turns t := by
  rcases inTurn_iff.mp h with hbody | hlast
  · exact .inl (by rw [hbody]; rfl)
  · exact .inr (by rw [hlast]; rfl)

/-- While the egress thread is elsewhere nobody dequeues. -/
theorem Attended.free (h : s.Attended) (hne : s.egress ≠ .dequeues) (u : WorkerId) :
    (s.queue.pcs u).consumes = false :=
  Bool.eq_false_iff.mpr fun hu => hne (h.consumes u hu).2

/-- A thread that is quiet does not dequeue. -/
theorem not_consumes_of_quiet (h : s.quiet t = true) : (s.queue.pcs t).consumes = false := by
  rw [quiet, Bool.and_eq_true] at h
  rw [RingPc.eq_out h.2]
  rfl

theorem rest?_of_inTurn (h : s.inTurn t = true) : (s.life.threads t).rest? = some [] := by
  rcases inTurn_iff.mp h with hbody | hlast
  · rw [hbody]
    rfl
  · rw [hlast]
    rfl

/-- **The egress thread stays in its turn** while it dequeues. -/
theorem inTurn_life {a : WorkerLabel TelemetryBus.Call} {life : Workers TelemetryBus.Flag}
    (hmay : s.mayLive a = true) (hstep : bus.step s.life a = some life)
    (ht : s.inTurn t = true) (hquiet : s.quiet t = false)
    (hbusy : s.egress ≠ .empty ∧ s.egress ≠ .done) :
    life.threads t = s.life.threads t := by
  have hrest := rest?_of_inTurn ht
  refine threads_other hstep (fun hat => ?_) hrest
  cases a with
  | step u =>
    obtain rfl : u = t := hat
    rw [mayLive, Bool.and_eq_true, Bool.or_eq_true, Bool.or_eq_true] at hmay
    rcases inTurn_iff.mp ht with hbody | hlast
    · have hor := hmay.1.resolve_left (by simp [hbody])
      exact absurd (of_decide_eq_true hor) (by simp [hbusy])
    · have hor := hmay.2.resolve_left (by simp [hlast])
      exact absurd (of_decide_eq_true hor) (by simp [hbusy])
  | call u c =>
    obtain rfl : u = t := hat
    rw [mayLive, free, hquiet] at hmay
    cases hmay
  | depart u =>
    obtain rfl : u = t := hat
    rw [mayLive, hquiet] at hmay
    cases hmay
  | arrive u =>
    obtain rfl : u = t := hat
    simp only [WorkerClass.step] at hstep
    split_ifs at hstep with hpc
    rw [hpc] at hrest
    cases hrest
  | openFails u =>
    obtain rfl : u = t := hat
    simp [WorkerClass.step, hrest] at hstep
  | spawn u new =>
    obtain rfl : u = t := hat
    simp [WorkerClass.step, hrest] at hstep
  | fault u => cases hstep

/-- The worker leaves a turn when it is through with it, and the place is clean then. -/
theorem turns_life {a : WorkerLabel TelemetryBus.Call} {life : Workers TelemetryBus.Flag}
    (hstep : bus.step s.life a = some life) (ht : s.Turns t) :
    (phase (life.threads t) = .turn ∨ phase (life.threads t) = .draining) ∨
      s.egressAfter a = .idle := by
  have hmove := phase_step (u := t) hstep
  generalize phase (life.threads t) = ph at hmove
  cases hmove with
  | same => exact .inl ht
  | created _ hnew => simp [Turns, hnew, phase] at ht
  | turned htest => simp [Turns, htest, phase] at ht
  | tested htest => simp [Turns, htest, phase] at ht
  | again ha hbody => exact .inr (by rw [ha, egressAfter, if_pos (inTurn_iff.mpr (.inl hbody))])
  | broke ha => exact .inl (.inr rfl)
  | drained ha hlast => exact .inr (by rw [ha, egressAfter, if_pos (inTurn_iff.mpr (.inr hlast))])
  | reaped hended => simp [Turns, hended, phase] at ht

/-- What a step of a call leaves of the place of the egress thread. -/
theorem egressAfter_cases {a : WorkerLabel TelemetryBus.Call} (hmay : s.mayLive a = true) :
    s.egressAfter a = s.egress ∨
      s.egressAfter a = .idle ∧ (s.egress = .empty ∨ s.egress = .done) := by
  cases a with
  | step t =>
    rw [egressAfter]
    split_ifs with hturn
    · refine .inr ⟨rfl, ?_⟩
      rw [mayLive, Bool.and_eq_true, Bool.or_eq_true, Bool.or_eq_true] at hmay
      rcases inTurn_iff.mp hturn with hbody | hlast
      · exact of_decide_eq_true (hmay.1.resolve_left (by simp [hbody]))
      · exact .inl (of_decide_eq_true (hmay.2.resolve_left (by simp [hlast])))
    · exact .inl rfl
  | _ => exact .inl rfl

/-- **Every step keeps the places of the egress thread.** -/
theorem Attended.step (h : s.Attended) (hone : s.queue.OneConsumer) (hstep : s.Steps a s') :
    s'.Attended := by
  cases hstep with
  | @life a life may step =>
    refine ⟨fun t ht => ?_, fun hne => ?_⟩
    · obtain ⟨hturn, hdequeues⟩ := h.consumes t ht
      have hquiet : s.quiet t = false := Bool.eq_false_iff.mpr fun hq => by
        rw [not_consumes_of_quiet hq] at ht
        cases ht
      have hsame : life.threads t = s.life.threads t :=
        inTurn_life may step hturn hquiet (by simp [hdequeues])
      refine ⟨by simpa only [inTurn, hsame] using hturn, ?_⟩
      rcases egressAfter_cases may with hkeep | ⟨-, hend⟩
      · exact hkeep.trans hdequeues
      · simp [hdequeues] at hend
    · have hold : s.egress ≠ .idle := by
        rcases egressAfter_cases may with hkeep | ⟨hidle, -⟩
        · exact hkeep ▸ hne
        · exact absurd hidle hne
      obtain ⟨t, ht⟩ := h.egress hold
      exact ⟨t, (turns_life step ht).resolve_right hne⟩
  | publish free => exact ⟨h.consumes, h.egress⟩
  | refused publishing running => exact ⟨h.consumes, h.egress⟩
  | @enqueue t p q publishing running step =>
    refine ⟨fun u hu => ?_, h.egress⟩
    obtain ⟨-, hself⟩ := TicketRing.pcs_enqueue step
    have hut : u ≠ t := by
      rintro rfl
      rw [hself] at hu
      cases hu
    exact h.consumes u (TicketRing.pcs_other step hut ▸ hu)
  | queue step => exact ⟨fun u hu => h.consumes u (TicketRing.consumes_step step u ▸ hu), h.egress⟩
  | @enqueued t p accepted q at_ step =>
    refine ⟨fun u hu => ?_, h.egress⟩
    have hut : u ≠ t := by
      rintro rfl
      rw [TicketRing.pcs_leave step] at hu
      cases hu
    exact h.consumes u (TicketRing.pcs_other step hut ▸ hu)
  | @dequeued t item q at_ step =>
    have hconsumes : (s.queue.pcs t).consumes = true := by rw [at_]; rfl
    refine ⟨fun u hu => ?_, fun _ => ⟨t, turns_of_inTurn (h.consumes t hconsumes).1⟩⟩
    have hut : u ≠ t := by
      rintro rfl
      rw [TicketRing.pcs_leave step] at hu
      cases hu
    exact absurd (hone.one u t (TicketRing.pcs_other step hut ▸ hu) hconsumes) hut
  | @poll t q may step =>
    have hturn : s.inTurn t = true := by
      simp only [mayPoll, Bool.or_eq_true, Bool.and_eq_true, decide_eq_true_eq] at may
      exact inTurn_iff.mpr (may.imp And.left And.left)
    have hne : s.egress ≠ .dequeues := by
      simp only [mayPoll, Bool.or_eq_true, Bool.and_eq_true, decide_eq_true_eq] at may
      rcases may with ⟨-, hidle | hempty⟩ | ⟨-, hidle | hdone⟩ <;> simp [*]
    refine ⟨fun u hu => ⟨?_, rfl⟩, fun _ => ⟨t, turns_of_inTurn hturn⟩⟩
    by_cases hut : u = t
    · exact hut ▸ hturn
    · exact absurd (h.consumes u (TicketRing.pcs_other step hut ▸ hu)).2 hne
  | @dispatch t p at_ turn =>
    refine ⟨fun u hu => ?_, fun _ => ⟨t, turns_of_inTurn turn⟩⟩
    rw [h.free (by simp [at_]) u] at hu
    cases hu
  | @callbacksReturn t at_ turn quiet =>
    refine ⟨fun u hu => ?_, fun _ => ⟨t, turns_of_inTurn turn⟩⟩
    rw [h.free (by simp [at_]) u] at hu
    cases hu

/-! ## What a step adds to the run -/

variable {h : History}

theorem record_dispatched (ha : ∀ t, a ≠ .dispatch t) :
    (record s a s' h).dispatched = h.dispatched := by
  unfold record
  split <;> try rfl
  · split_ifs <;> rfl
  · split_ifs <;> rfl
  · split <;> rfl
  · exact absurd rfl (ha _)

theorem record_accepted (ha : ∀ t, a ≠ .returns t) :
    (record s a s' h).accepted = h.accepted := by
  unfold record
  split <;> try rfl
  · split_ifs <;> rfl
  · split_ifs <;> rfl
  · exact absurd rfl (ha _)
  · split <;> rfl

theorem record_delivered (ha : ∀ t, a ≠ .callbacksReturn t) :
    (record s a s' h).delivered = h.delivered := by
  unfold record
  split <;> try rfl
  · split_ifs <;> rfl
  · split_ifs <;> rfl
  · split <;> rfl
  · split <;> rfl
  · exact absurd rfl (ha _)

theorem record_left (ha : ∀ t, a ≠ .life (.step t)) : (record s a s' h).left = h.left := by
  unfold record
  split <;> try rfl
  · exact absurd rfl (ha _)
  · split_ifs <;> rfl
  · split <;> rfl
  · split <;> rfl

theorem record_calling (ha : ∀ t c, a ≠ .life (.call t c)) :
    (record s a s' h).calling = h.calling := by
  unfold record
  split <;> try rfl
  · exact absurd rfl (ha _ _)
  · split_ifs <;> rfl
  · split_ifs <;> rfl
  · split <;> rfl
  · split <;> rfl

theorem record_dispatch {p : Publication} (hp : s.egress = .dispatch p) :
    (record s (.dispatch t) s' h).dispatched = h.dispatched ++ [(p, s.frame p)] := by
  unfold record
  dsimp only
  rw [hp]

theorem record_returns {p : Publication} {accepted : Bool}
    (hp : s.queue.pcs t = .enqueued p accepted) :
    (record s (.returns t) s' h).accepted =
      if accepted then h.accepted ++ [p] else h.accepted := by
  unfold record
  dsimp only
  rw [hp]

theorem record_returns_none {item : Option Publication} (hp : s.queue.pcs t = .dequeued item) :
    record s (.returns t) s' h = h := by
  unfold record
  dsimp only
  rw [hp]

/-! ## The records, in the order of the queue -/

/-- What the egress thread leaves at hand is what it had at hand. -/
theorem hand_life {a : WorkerLabel TelemetryBus.Call} {life : Workers TelemetryBus.Flag}
    (hmay : s.mayLive a = true) :
    ({ s with life := life, egress := s.egressAfter a } : Telemetry).hand = s.hand := by
  rw [hand, hand]
  rcases egressAfter_cases hmay with hkeep | ⟨hidle, hempty | hdone⟩
  · simp only [hkeep]
  · simp only [hidle, hempty]
  · simp only [hidle, hdone]

/-- **Every step keeps the order of the queue**: what was dispatched, and the record at hand, were
taken out one after the other. -/
theorem served_step (hs : s.queue.Served (h.dispatched.map Prod.fst) s.hand) (ha : s.Attended)
    (hstep : s.Steps a s') :
    s'.queue.Served ((record s a s' h).dispatched.map Prod.fst) s'.hand := by
  cases hstep with
  | life may step =>
    rw [record_dispatched (by simp), hand_life may]
    exact hs
  | publish free => exact hs
  | refused publishing running =>
    rw [record_dispatched (by simp)]
    exact hs
  | enqueue publishing running step =>
    rw [record_dispatched (by simp)]
    exact hs.enqueue step
  | queue step => exact hs.step step
  | enqueued at_ step =>
    rw [record_dispatched (by simp)]
    exact hs.enqueued at_ step
  | @dequeued t item q at_ step =>
    rw [record_dispatched (by simp)]
    have hnext := hs.dequeued at_ step
    cases item with
    | none => exact hnext
    | some p => exact hnext
  | @poll t q may step =>
    rw [record_dispatched (by simp)]
    have hend : s.egress = .idle ∨ s.egress = .empty ∨ s.egress = .done := by
      simp only [mayPoll, Bool.or_eq_true, Bool.and_eq_true, decide_eq_true_eq] at may
      tauto
    have hhand : s.hand = none := by
      rw [hand]
      rcases hend with hend | hend | hend <;> simp only [hend]
    have hfree := ha.free (by rcases hend with hend | hend | hend <;> simp [hend])
    rw [hhand] at hs
    exact hs.dequeue hfree step
  | @dispatch t p at_ turn =>
    rw [record_dispatch at_, List.map_append]
    have hhand : s.hand = some p := by simp only [hand, at_]
    rw [hhand] at hs
    exact hs.serve
  | callbacksReturn at_ turn quiet =>
    rw [record_dispatched (by simp)]
    have hhand : s.hand = none := by simp only [hand, at_]
    rw [hhand] at hs
    exact hs

/-- The number of a publication. -/
def tag (p : Publication) : WorkerId × ℕ := (p.publisher, p.number)

/-- **Every step keeps the order of the calls.** -/
theorem ordered_step (ho : s.queue.Ordered tag s.published s.publishing)
    (hstep : s.Steps a s') : s'.queue.Ordered tag s'.published s'.publishing := by
  cases hstep with
  | life may step => exact ho
  | @publish t record free =>
    have hquiet : s.quiet t = true := by
      rw [Telemetry.free, Bool.and_eq_true, Bool.and_eq_true] at free
      exact free.1.1
    have hout : s.queue.pcs t = .out := by
      rw [quiet, Bool.and_eq_true] at hquiet
      exact RingPc.eq_out hquiet.2
    exact ho.call (by rw [hout]; rfl) rfl
  | refused publishing running => exact ho.drop
  | enqueue publishing running step => exact ho.enqueue publishing step
  | queue step => exact ho.step step
  | enqueued at_ step => exact ho.elsewhere (.inr ⟨_, rfl⟩) step
  | dequeued at_ step => exact ho.elsewhere (.inr ⟨_, rfl⟩) step
  | poll may step => exact ho.elsewhere (.inl ⟨_, rfl⟩) step
  | dispatch at_ turn => exact ho
  | callbacksReturn at_ turn quiet => exact ho

/-- **The frames of each channel are numbered from 0 on**, and each is that of its record. -/
structure Numbered (s : Telemetry) (h : History) : Prop where
  numbers : ∀ channel, (h.frames channel).map TelemetryFrame.seq = List.range (s.nextSeq_ channel)
  frame : ∀ d ∈ h.dispatched, d.2.toRecord = d.1.toRecord

theorem Numbered.step (hn : s.Numbered h) (hstep : s.Steps a s') :
    s'.Numbered (record s a s' h) := by
  have hkeep (ha : ∀ t, a ≠ .dispatch t) (hseq : s'.nextSeq_ = s.nextSeq_) :
      s'.Numbered (record s a s' h) := by
    refine ⟨fun channel => ?_, fun d hd => hn.frame d (record_dispatched ha ▸ hd)⟩
    rw [hseq, ← hn.numbers channel, History.frames, History.frames, record_dispatched ha]
  cases hstep with
  | @dispatch t p at_ turn =>
    refine ⟨fun channel => ?_, fun d hd => ?_⟩
    · have hold := hn.numbers channel
      rw [History.frames] at hold ⊢
      rw [record_dispatch at_, List.map_append, List.filter_append, List.map_append, hold]
      change List.range _ ++ _ = List.range (Function.update s.nextSeq_ p.channel _ channel)
      by_cases hchannel : channel = p.channel
      · subst hchannel
        rw [Function.update_self, List.range_succ]
        simp [Telemetry.frame]
      · rw [Function.update_of_ne hchannel]
        simp [Telemetry.frame, Ne.symm hchannel]
    · rw [record_dispatch at_] at hd
      rcases List.mem_append.mp hd with hd | hd
      · exact hn.frame d hd
      · rw [List.mem_singleton.mp hd]
        rfl
  | _ => exact hkeep (by simp) rfl

/-- **What was accepted is in the log of the queue.** -/
structure Logged (s : Telemetry) (h : History) : Prop where
  accepted : ∀ p ∈ h.accepted, p ∈ s.queue.log
  accepts : ∀ t p, s.queue.pcs t = .enqueued p true → p ∈ s.queue.log

theorem Logged.step (hl : s.Logged h) (hs : s.queue.Sound) (hstep : s.Steps a s') :
    s'.Logged (record s a s' h) := by
  have hold (ha : ∀ t, a ≠ .returns t) (p : Publication)
      (hp : p ∈ (record s a s' h).accepted) : p ∈ s.queue.log :=
    hl.accepted p (record_accepted ha ▸ hp)
  -- a step in the queue that accepts nothing
  have hmove {q : TicketRing WorkerId Publication} {b : RingLabel WorkerId Publication}
      (hb : s.queue.step b = some q) (ht : ∀ p, q.pcs b.thread ≠ .enqueued p true)
      (u : WorkerId) (p : Publication) (hu : q.pcs u = .enqueued p true) : p ∈ s.queue.log := by
    have hut : u ≠ b.thread := by
      rintro rfl
      exact ht p hu
    rw [TicketRing.pcs_other hb hut] at hu
    exact hl.accepts u p hu
  cases hstep with
  | @enqueue t p q publishing running step =>
    obtain ⟨-, hself⟩ := TicketRing.pcs_enqueue step
    have hlog := TicketRing.log_call (.inl ⟨t, p, rfl⟩) step
    refine ⟨fun x hx => hlog ▸ hold (by simp) x hx, fun u x hu => hlog ▸ hmove step ?_ u x hu⟩
    exact fun x hx => by
      rw [show q.pcs (RingLabel.enqueue t p).thread = _ from hself] at hx
      cases hx
  | @poll t q may step =>
    obtain ⟨-, hself⟩ := TicketRing.pcs_dequeue step
    have hlog := TicketRing.log_call (.inr (.inl ⟨t, rfl⟩)) step
    refine ⟨fun x hx => hlog ▸ hold (by simp) x hx, fun u x hu => hlog ▸ hmove step ?_ u x hu⟩
    exact fun x hx => by
      rw [show q.pcs (RingLabel.dequeue t).thread = _ from hself] at hx
      cases hx
  | @queue t spurious q step =>
    have hprefix := TicketRing.log_step step
    refine ⟨fun x hx => hprefix.subset (hold (by simp) x hx), fun u x hu => ?_⟩
    by_cases hut : u = t
    · subst hut
      obtain ⟨pos, hpos⟩ := TicketRing.publishes_of_enqueued step hu
      exact hprefix.subset (List.mem_of_getElem? (hs.publish hpos))
    · rw [TicketRing.pcs_other step hut] at hu
      exact hprefix.subset (hl.accepts u x hu)
  | @enqueued t p accepted q at_ step =>
    have hself := TicketRing.pcs_leave step
    have hlog := TicketRing.log_call (.inr (.inr ⟨t, rfl⟩)) step
    refine ⟨fun x hx => ?_, fun u x hu => hlog ▸ hmove step ?_ u x hu⟩
    · rw [record_returns at_] at hx
      rw [hlog]
      split_ifs at hx with haccepted
      · rcases List.mem_append.mp hx with hx | hx
        · exact hl.accepted x hx
        · rw [List.mem_singleton.mp hx]
          exact hl.accepts t p (haccepted ▸ at_)
      · exact hl.accepted x hx
    · exact fun x hx => by
        rw [show q.pcs (RingLabel.leave t).thread = _ from hself] at hx
        cases hx
  | @dequeued t item q at_ step =>
    have hself := TicketRing.pcs_leave step
    have hlog := TicketRing.log_call (.inr (.inr ⟨t, rfl⟩)) step
    refine ⟨fun x hx => ?_, fun u x hu => hlog ▸ hmove step ?_ u x hu⟩
    · rw [record_returns_none at_] at hx
      exact hlog ▸ hl.accepted x hx
    · exact fun x hx => by
        rw [show q.pcs (RingLabel.leave t).thread = _ from hself] at hx
        cases hx
  | _ => exact ⟨hold (by simp), hl.accepts⟩

/-- **What was dispatched was delivered**, but for the record whose callbacks are running. -/
def Delivered (s : Telemetry) (h : History) : Prop :=
  h.delivered ++ (if s.egress = .callbacks then (h.dispatched.getLast?.map Prod.fst).toList else []) =
    h.dispatched.map Prod.fst

theorem Delivered.step (hd : s.Delivered h) (ha : s.Attended) (hstep : s.Steps a s') :
    s'.Delivered (record s a s' h) := by
  have hkeep (hne : ∀ t, a ≠ .dispatch t) (hne' : ∀ t, a ≠ .callbacksReturn t)
      (hegress : s'.egress = .callbacks ↔ s.egress = .callbacks) :
      s'.Delivered (record s a s' h) := by
    rw [Delivered, record_dispatched hne, record_delivered hne', if_congr hegress rfl rfl]
    exact hd
  cases hstep with
  | life may step =>
    refine hkeep (by simp) (by simp) ?_
    dsimp only
    rcases egressAfter_cases may with hsame | ⟨hidle, hempty | hdone⟩ <;> simp [*]
  | @dequeued t item q at_ step =>
    have hdequeues := (ha.consumes t (by rw [at_]; rfl)).2
    refine hkeep (by simp) (by simp) ?_
    cases item <;> simp [hdequeues]
  | @poll t q may step =>
    refine hkeep (by simp) (by simp) ?_
    simp only [mayPoll, Bool.or_eq_true, Bool.and_eq_true, decide_eq_true_eq] at may
    rcases may with ⟨-, hidle | hempty⟩ | ⟨-, hidle | hdone⟩ <;> simp [*]
  | @dispatch t p at_ turn =>
    rw [Delivered, if_neg (by simp [at_]), List.append_nil] at hd
    rw [Delivered, record_delivered (by simp), record_dispatch at_, if_pos rfl, hd]
    simp
  | callbacksReturn at_ turn quiet =>
    rw [Delivered, if_pos at_] at hd
    rw [Delivered, record_dispatched (by simp), if_neg (by simp), List.append_nil]
    exact hd
  | _ => exact hkeep (by simp) (by simp) Iff.rfl

/-! ## Where the calls stand -/

/-- What may be left of a call. -/
def places : TelemetryBus.Call → List (List (Stmt TelemetryBus.Flag))
  | .start => (.returnIf [] :: start.drop 3) :: start.tails
  | .stop => stop.tails

/-- The rest of each call is one of its places. -/
def Called (s : Telemetry) (h : History) : Prop :=
  ∀ t rest, (s.life.threads t).rest? = some rest → rest ≠ [] →
    ∃ c, h.calling t = some c ∧ rest ∈ places c

theorem nexts_places (c : TelemetryBus.Call) :
    ∀ rest ∈ places c, ∀ rest' ∈ Stmt.nexts rest, rest' ∈ places c := by
  cases c <;> decide

theorem code_mem_places (c : TelemetryBus.Call) : bus.code c ∈ places c := by
  cases c <;> decide

/-- Whoever is about to set `running_` creates the egress thread next. -/
theorem rest_of_store (c : TelemetryBus.Call) (rest : List (Stmt TelemetryBus.Flag))
    (h : .store .running true :: rest ∈ places c) : rest = [.spawn, .unlock] := by
  have hall : ∀ c, ∀ r ∈ places c, r.head? = some (.store .running true) →
      r.tail = [.spawn, .unlock] := by
    intro c
    cases c <;> decide
  exact hall c _ h rfl

theorem Called.step (hcalled : s.Called h) (hstep : s.Steps a s') :
    s'.Called (record s a s' h) := by
  have hkeep (ha : ∀ t c, a ≠ .life (.call t c)) (hlife : s'.life = s.life) :
      s'.Called (record s a s' h) := by
    intro t rest hr hne
    rw [hlife] at hr
    rw [record_calling ha]
    exact hcalled t rest hr hne
  cases hstep with
  | @life a life may step =>
    intro t rest hr hne
    cases rest_step step hr with
    | @kept rest hold hat =>
      obtain ⟨c, hc, hmem⟩ := hcalled t rest hold hne
      refine ⟨c, ?_, hmem⟩
      cases a with
      | call u c' => exact (Function.update_of_ne (Ne.symm hat) ..).trans hc
      | _ => rwa [record_calling (by simp)]
    | empty => exact absurd rfl hne
    | @called c ha => exact ⟨c, by rw [ha]; exact Function.update_self .., code_mem_places c⟩
    | @ran stmt rest r ht ha hexec =>
      obtain ⟨c, hc, hmem⟩ := hcalled t _ ht (List.cons_ne_nil _ _)
      refine ⟨c, by rw [ha, record_calling (by simp), hc], ?_⟩
      exact nexts_places c _ hmem _ (Workers.next_exec hexec).mem_nexts
    | @opened rest ht ha =>
      obtain ⟨c, hc, hmem⟩ := hcalled t _ ht (List.cons_ne_nil _ _)
      refine ⟨c, by rw [ha, record_calling (by simp), hc], ?_⟩
      exact nexts_places c _ hmem _ Stmt.Next.back.mem_nexts
    | @spawned rest new ht ha =>
      obtain ⟨c, hc, hmem⟩ := hcalled t _ ht (List.cons_ne_nil _ _)
      refine ⟨c, by rw [ha, record_calling (by simp), hc], ?_⟩
      exact nexts_places c _ hmem _ Stmt.Next.goOn.mem_nexts
  | _ => exact hkeep (by simp) rfl

/-! ## While `running_` is set

Somebody then turns, or is about to create who does; and whoever drains has seen it cleared. -/

/-- A thread is about to create the egress thread. -/
def Spawns (p : Workers TelemetryBus.Flag) (t : WorkerId) : Prop :=
  ∃ rest, (p.threads t).rest? = some (.spawn :: rest)

/-- The egress thread has not seen `running_` cleared. -/
def Runs (p : Workers TelemetryBus.Flag) (t : WorkerId) : Prop :=
  phase (p.threads t) = .between ∨ phase (p.threads t) = .turn

structure Driven (s : Telemetry) : Prop where
  runs : s.life.flags .running = true → ∃ t, Spawns s.life t ∨ Runs s.life t
  ended : ∀ t, phase (s.life.threads t) = .draining ∨ phase (s.life.threads t) = .leaving →
    s.life.flags .running = false

variable {b : WorkerLabel TelemetryBus.Call} {p q : Workers TelemetryBus.Flag}

/-- Whoever creates the egress thread does it next. -/
theorem Spawns.step (hs : Spawns p t) (hstep : bus.step p b = some q) :
    Spawns q t ∨ ∃ u, Runs q u := by
  obtain ⟨rest, ht⟩ := hs
  by_cases hat : b.actor = t
  · subst hat
    rcases actor_cases hstep ht with hrun | ⟨hopen, -⟩ | ⟨-, new, hspawn⟩
    · rw [hrun] at hstep
      cases threadStep hstep with
      | ran ht' hexec =>
        obtain ⟨rfl, rfl⟩ := List.cons.inj (Option.some.inj (ht.symm.trans ht'))
        cases hexec
      | moved _ hrest => exact absurd (hrest _ ht) (by simp)
      | left hpc => simp [hpc, WorkerPc.rest?] at ht
    · cases hopen
    · rw [hspawn] at hstep
      simp only [WorkerClass.step, ht] at hstep
      split_ifs at hstep
      obtain ⟨⟩ := hstep
      refine .inr ⟨new, .inl ?_⟩
      simp only [Workers.setThread, Function.update_self, phase]
  · exact .inl ⟨rest, rest?_other hstep hat ht⟩

/-- The egress thread goes on while `running_` is set. -/
theorem Runs.step (hr : Runs p t) (hstep : bus.step p b = some q) :
    Runs q t ∨ p.flags .running = false := by
  have hmove := phase_step (u := t) hstep
  generalize hph : phase (q.threads t) = ph at hmove
  cases hmove with
  | same => exact .inl (by rw [Runs, hph]; exact hr)
  | turned => exact .inl (.inr hph)
  | @tested flag flags htest hflag =>
    cases flag
    exact .inr hflag
  | again => exact .inl (.inl hph)
  | broke ha => rw [ha] at hstep; cases hstep
  | created _ hnew => simp [Runs, hnew, phase] at hr
  | drained _ hlast => simp [Runs, hlast, phase] at hr
  | reaped hended => simp [Runs, hended, phase] at hr

/-- `running_` is set by a thread that creates the egress thread next. -/
theorem sets_running (hcalled : s.Called h) (hstep : bus.step s.life b = some q)
    (hwas : s.life.flags .running = false) (hset : q.flags .running = true) :
    b = .step b.actor ∧
      (s.life.threads b.actor).rest? = some [.store .running true, .spawn, .unlock] := by
  rcases flags_step hstep .running with hsame | hwrites
  · rw [hsame, hwas] at hset
    cases hset
  · rw [hset] at hwrites
    cases hwrites with
    | stored ht =>
      obtain ⟨c, -, hmem⟩ := hcalled _ _ ht (List.cons_ne_nil _ _)
      rw [rest_of_store c _ hmem] at ht
      exact ⟨rfl, ht⟩
    | exchanged ht =>
      obtain ⟨c, -, hmem⟩ := hcalled _ _ ht (List.cons_ne_nil _ _)
      have hall : ∀ c, ∀ r ∈ places c, r.head? ≠ some (Stmt.returnIfExchanged Flag.running) := by
        intro c
        cases c <;> decide
      exact absurd rfl (hall c _ hmem)

/-- There is no egress thread then. -/
theorem no_worker_of_sets (hC : bus.Custody s.life)
    (ht : (s.life.threads t).rest? = some [.store .running true, .spawn, .unlock]) (u : WorkerId) :
    phase (s.life.threads u) = .outside := by
  by_contra hu
  have hhandle := (hC.handle u).mp (isWorker_iff_phase.mpr hu)
  rw [hC.noWorker t _ ht rfl] at hhandle
  cases hhandle

theorem Driven.step (hd : s.Driven) (hC : bus.Custody s.life) (hcalled : s.Called h)
    (hstep : s.Steps a s') : s'.Driven := by
  cases hstep with
  | @life a life may step =>
    constructor
    · intro hset
      change life.flags .running = true at hset
      cases hwas : s.life.flags .running with
      | true =>
        obtain ⟨t, hspawns | hruns⟩ := hd.runs hwas
        · rcases hspawns.step step with hs | ⟨u, hu⟩
          · exact ⟨t, .inl hs⟩
          · exact ⟨u, .inr hu⟩
        · rcases hruns.step step with hr | hclear
          · exact ⟨t, .inr hr⟩
          · rw [hwas] at hclear
            cases hclear
      | false =>
        obtain ⟨ha, ht⟩ := sets_running hcalled step hwas hset
        rw [ha] at step
        have hq := step_ran ht (r := (s.life.store .running true, [.spawn, .unlock])) rfl step
        refine ⟨a.actor, .inl ⟨[.unlock], ?_⟩⟩
        change (life.threads a.actor).rest? = _
        rw [hq]
        change (Function.update s.life.threads a.actor _ a.actor).rest? = _
        rw [Function.update_self]
        exact WorkerPc.rest?_withRest ht
    · intro t ht
      change life.flags .running = false
      change phase (life.threads t) = _ ∨ phase (life.threads t) = _ at ht
      have hwas : s.life.flags .running = false ∧ phase (s.life.threads t) ≠ .outside := by
        have hmove := phase_step (u := t) step
        generalize phase (life.threads t) = ph at hmove ht
        cases hmove with
        | same => exact ⟨hd.ended t ht, by rcases ht with ht | ht <;> simp [ht]⟩
        | @tested flag flags htest hflag =>
          cases flag
          exact ⟨hflag, by simp [htest, phase]⟩
        | drained _ hlast => exact ⟨hd.ended t (by simp [hlast, phase]), by simp [hlast, phase]⟩
        | broke ha => rw [ha] at step; cases step
        | created => simp at ht
        | turned => simp at ht
        | again => simp at ht
        | reaped => simp at ht
      refine Bool.eq_false_iff.mpr fun hset => ?_
      obtain ⟨-, hrest⟩ := sets_running hcalled step hwas.1 hset
      exact hwas.2 (no_worker_of_sets hC hrest t)
  | _ => exact ⟨hd.runs, hd.ended⟩

/-! ## When the egress thread has given up

The condition of the results below is on one step: the last drain finds nothing. -/

/-- The last drain has found nothing. -/
def GaveUp (s : Telemetry) (t : WorkerId) : Prop :=
  s.egress = .empty ∨ s.queue.pcs t = .dequeued none

/-- Nobody will dequeue until the next `start`. -/
structure Spent (s : Telemetry) : Prop where
  cleared : s.life.flags .running = false
  spawns : ∀ t, ¬ Spawns s.life t
  worker : ∀ t, phase (s.life.threads t) ≠ .outside → phase (s.life.threads t) = .leaving ∨
    phase (s.life.threads t) = .draining ∧ s.GaveUp t

/-- **The last drain gives up** only when no `publish` is still enqueuing. -/
def Settled (s : Telemetry) : TelemetryBus.Label → Prop
  | .queue t _ => ∀ pos, s.life.threads t = .last [] → s.queue.pcs t = .inspect pos →
      s.queue.sequence (s.queue.index pos) < pos + 1 → ∀ u, (s.queue.pcs u).enqueues = false
  | _ => True

theorem worker_unique (hC : bus.Custody s.life) (ht : phase (s.life.threads t) ≠ .outside)
    (hu : phase (s.life.threads u) ≠ .outside) : t = u :=
  hC.handle.unique (isWorker_iff_phase.mpr ht) (isWorker_iff_phase.mpr hu)

/-- A turn is over when the worker has given up. -/
theorem Spent.not_inTurn (hs : s.Spent) (ht : s.inTurn t = true) : s.GaveUp t := by
  have hturns := turns_of_inTurn ht
  rcases hs.worker t (by rcases hturns with h | h <;> simp [h]) with hleave | ⟨-, hgave⟩
  · rcases hturns with h | h <;> simp [h] at hleave
  · exact hgave

/-- **A step of the lifecycle does not make the bus spent**: it was. -/
theorem Spent.of_life (hd : s.Driven) (ha : s.Attended) (hC : bus.Custody s.life)
    (hmay : s.mayLive b = true) (hstep : bus.step s.life b = some q)
    (hs : Spent { s with life := q, egress := s.egressAfter b }) : s.Spent := by
  have hwent (hany : ∃ t, Spawns q t ∨ Runs q t) : False := by
    obtain ⟨t, hspawns | hruns | hruns⟩ := hany
    · exact hs.spawns t hspawns
    · have hw := hs.worker t (by simp [hruns])
      simp [hruns] at hw
    · have hw := hs.worker t (by simp [hruns])
      simp [hruns] at hw
  have hcleared : s.life.flags .running = false := by
    refine Bool.eq_false_iff.mpr fun hset => ?_
    obtain ⟨t, hspawns | hruns⟩ := hd.runs hset
    · rcases hspawns.step hstep with h | ⟨u, h⟩
      · exact hwent ⟨t, .inl h⟩
      · exact hwent ⟨u, .inr h⟩
    · rcases hruns.step hstep with h | h
      · exact hwent ⟨t, .inr h⟩
      · rw [hset] at h
        cases h
  refine ⟨hcleared, fun t ht => ?_, fun t ht => ?_⟩
  · rcases Spawns.step ht hstep with h | ⟨u, h⟩
    · exact hwent ⟨t, .inl h⟩
    · exact hwent ⟨u, .inr h⟩
  · have hgave (h : GaveUp { s with life := q, egress := s.egressAfter b } t) : s.GaveUp t := by
      refine h.imp_left fun hempty => ?_
      change s.egressAfter b = .empty at hempty
      rcases egressAfter_cases hmay with hsame | ⟨hidle, -⟩
      · exact hsame ▸ hempty
      · rw [hidle] at hempty
        cases hempty
    have hw := hs.worker t
    change phase (q.threads t) ≠ .outside → phase (q.threads t) = .leaving ∨
      phase (q.threads t) = .draining ∧ _ at hw
    have hmove := phase_step (u := t) hstep
    generalize phase (q.threads t) = ph at hmove hw
    cases hmove with
    | same => exact (hw ht).imp_right fun h => ⟨h.1, hgave h.2⟩
    | created _ hnew => simp [hnew, phase] at ht
    | turned => simp at hw
    | again => simp at hw
    | broke hb => rw [hb] at hstep; cases hstep
    | drained hb hlast =>
      rw [hb, mayLive, Bool.and_eq_true, Bool.or_eq_true, Bool.or_eq_true] at hmay
      exact .inr ⟨by rw [hlast]; rfl,
        .inl (of_decide_eq_true (hmay.2.resolve_left (by simp [hlast])))⟩
    | reaped hended => exact .inl (by rw [hended]; rfl)
    | tested htest =>
      -- a worker that tests the condition of its loop is in no turn
      have hnot : ¬ s.Turns t := by simp [Turns, htest, phase]
      rcases hgave ((hw (by simp [phase, afterLoop, bus])).resolve_left
        (by simp [phase, afterLoop, bus])).2 with hempty | hpc
      · obtain ⟨u, hu⟩ := ha.egress (by simp [hempty])
        have hut : u = t := worker_unique hC (by rcases hu with hu | hu <;> simp [hu]) ht
        exact absurd (hut ▸ hu) hnot
      · exact absurd (turns_of_inTurn (ha.consumes t (by rw [hpc]; rfl)).1) hnot

/-- Nor does a step in the queue, unless a dequeue finds nothing. -/
theorem Spent.of_queue {e : RingLabel WorkerId Publication} {q : TicketRing WorkerId Publication}
    (hq : s.queue.step e = some q) (hpc : q.pcs e.thread ≠ .dequeued none)
    (hs : Spent { s with queue := q }) : s.Spent := by
  refine ⟨hs.cleared, hs.spawns, fun u hu => (hs.worker u hu).imp_right fun h => ⟨h.1, ?_⟩⟩
  refine h.2.imp_right fun hfound => ?_
  have hne : u ≠ e.thread := by
    rintro rfl
    exact hpc hfound
  exact (TicketRing.pcs_other hq hne).symm.trans hfound

/-- **Every step leaves the queue of a spent bus dry**, if the last drain gives up only when nobody
enqueues. -/
theorem dry_step {served : List Publication} (hdry : s.Spent → s.queue.Dry) (hd : s.Driven)
    (ha : s.Attended) (hC : bus.Custody s.life) (hs : s.queue.Served served s.hand)
    (hG : s.Settled a) (hstep : s.Steps a s') : s'.Spent → s'.queue.Dry := by
  intro hspent
  cases hstep with
  | life may step => exact hdry (.of_life hd ha hC may step hspent)
  | publish free => exact hdry ⟨hspent.cleared, hspent.spawns, hspent.worker⟩
  | refused publishing running => exact hdry ⟨hspent.cleared, hspent.spawns, hspent.worker⟩
  | enqueue publishing running step =>
    have hcleared := hspent.cleared
    change s.life.flags .running = false at hcleared
    rw [running] at hcleared
    cases hcleared
  | @queue t spurious q step =>
    by_cases hfound : q.pcs t = .dequeued none
    · have hconsumes : (s.queue.pcs t).consumes = true := by
        rw [← TicketRing.consumes_step step t, hfound]
        rfl
      have hturn := (ha.consumes t hconsumes).1
      have hlast : s.life.threads t = .last [] := by
        refine (inTurn_iff.mp hturn).resolve_left fun hbody => ?_
        have hw := hspent.worker t
        simp [hbody, phase] at hw
      obtain ⟨pos, hinspect, hseq⟩ := TicketRing.inspects_of_dequeued step hfound
      exact hs.dry (hG pos hlast hinspect hseq) step hfound
    · exact (hdry (hspent.of_queue step hfound)).step hs.sound step
  | @enqueued t p accepted q at_ step =>
    refine (hdry (hspent.of_queue step ?_)).leave step
    rw [show q.pcs (RingLabel.leave t).thread = _ from TicketRing.pcs_leave step]
    simp
  | @dequeued t item q at_ step =>
    have hturn := (ha.consumes t (by rw [at_]; rfl)).1
    cases item with
    | some p =>
      -- it has something to dispatch
      have hgave := hspent.not_inTurn (t := t) hturn
      simp [GaveUp, TicketRing.pcs_leave step] at hgave
    | none =>
      refine (hdry ⟨hspent.cleared, hspent.spawns, fun u hu => ?_⟩).leave step
      refine (hspent.worker u hu).imp_right fun h => ⟨h.1, ?_⟩
      have hut : u = t := by
        refine worker_unique hC hu ?_
        rcases turns_of_inTurn hturn with ht | ht <;> simp [ht]
      exact .inr (hut ▸ at_)
  | @poll t q may step =>
    have hturn : s.inTurn t = true := by
      simp only [mayPoll, Bool.or_eq_true, Bool.and_eq_true, decide_eq_true_eq] at may
      exact inTurn_iff.mpr (may.imp And.left And.left)
    have hgave := hspent.not_inTurn (t := t) hturn
    simp [GaveUp, (TicketRing.pcs_dequeue step).2] at hgave
  | @dispatch t p at_ turn =>
    have hfree := ha.free (by simp [at_]) t
    have hgave := (hspent.not_inTurn (t := t) turn).resolve_left (by simp)
    rw [show s.queue.pcs t = _ from hgave] at hfree
    cases hfree
  | @callbacksReturn t at_ turn quiet =>
    have hfree := ha.free (by simp [at_]) t
    have hgave := (hspent.not_inTurn (t := t) turn).resolve_left (by simp)
    rw [show s.queue.pcs t = _ from hgave] at hfree
    cases hfree

/-! ## What a `stop` leaves behind -/

/-- A statement of `stop` that has only the unlock behind it, or nothing. -/
theorem stop_cases {stmt : Stmt TelemetryBus.Flag} {rest : List (Stmt TelemetryBus.Flag)}
    {r : Workers TelemetryBus.Flag × List (Stmt TelemetryBus.Flag)}
    (hmem : stmt :: rest ∈ places .stop) (hexec : p.exec t stmt rest = some r) :
    (r.2 = [.unlock] → stmt :: rest = [.clearId, .unlock]) ∧
      (r.2 = [] → stmt :: rest = [.unlock] ∨ p.workerId = some t) := by
  have hplaces : stmt :: rest = stop ∨ stmt :: rest = stop.drop 1 ∨ stmt :: rest = stop.drop 2 ∨
      stmt :: rest = stop.drop 3 ∨ stmt :: rest = stop.drop 4 ∨ stmt :: rest = stop.drop 5 ∨
      stmt :: rest = stop.drop 6 := by
    simpa [places, stop] using hmem
  rcases hplaces with h | h | h | h | h | h | h <;>
    obtain ⟨rfl, rfl⟩ := List.cons.inj h
  · obtain ⟨⟩ := hexec
    simp
  · obtain ⟨⟩ := hexec
    dsimp only
    split_ifs with hid <;> simp [hid, Stmt.unwind, Stmt.held]
  · obtain ⟨-, ⟨⟩⟩ := Option.ite_none_left_eq_some.mp hexec
    simp
  · obtain ⟨⟩ := hexec
    dsimp only
    split_ifs <;> simp
  · obtain ⟨q, -, rfl⟩ := Option.map_eq_some_iff.mp hexec
    simp
  · obtain ⟨⟩ := hexec
    simp
  · obtain ⟨⟩ := hexec
    simp

/-- A `stop` that is about to unlock the mutex has found no egress thread, or has joined it. -/
def Unlocks (s : Telemetry) (h : History) : Prop :=
  ∀ t, h.calling t = some .stop → (s.life.threads t).rest? = some [.unlock] → s.life.handle = none

theorem Unlocks.step (hu : s.Unlocks h) (hcalled : s.Called h) (hC : bus.Custody s.life)
    (hstep : s.Steps a s') : s'.Unlocks (record s a s' h) := by
  have hkeep (ha : ∀ t c, a ≠ .life (.call t c)) (hlife : s'.life = s.life) :
      s'.Unlocks (record s a s' h) := by
    intro t ht hr
    rw [record_calling ha] at ht
    rw [hlife] at hr ⊢
    exact hu t ht hr
  have hstop {t : WorkerId} {rest : List (Stmt TelemetryBus.Flag)} (ht : h.calling t = some .stop)
      (hr : (s.life.threads t).rest? = some rest) (hne : rest ≠ []) : rest ∈ places .stop := by
    obtain ⟨c, hc, hmem⟩ := hcalled t rest hr hne
    obtain rfl := Option.some.inj (ht.symm.trans hc)
    exact hmem
  cases hstep with
  | @life b life may step =>
    intro t ht hr
    change (life.threads t).rest? = _ at hr
    change life.handle = none
    generalize hrest : ([.unlock] : List (Stmt TelemetryBus.Flag)) = r at hr
    cases rest_step step hr with
    | kept hold hat =>
      have hcalling : h.calling t = some .stop := by
        cases b with
        | call u c => exact (Function.update_of_ne (Ne.symm hat) ..).symm.trans ht
        | _ => rwa [record_calling (by simp)] at ht
      subst hrest
      exact hC.handle_none step (by rw [WorkerPc.holds_of_rest? hold]; rfl) hat
        (hu t hcalling hold)
    | empty => cases hrest
    | @called c => cases c <;> cases hrest
    | @ran stmt rest r ha hb hexec =>
      rw [hb, record_calling (by simp)] at ht
      have hclear := (stop_cases (hstop ht ha (List.cons_ne_nil _ _)) hexec).1 hrest.symm
      obtain ⟨rfl, rfl⟩ := List.cons.inj hclear
      subst hb
      rw [step_ran ha hexec step]
      obtain ⟨⟩ := hexec
      exact hC.noWorker t _ ha rfl
    | opened ha hb =>
      rw [hb, record_calling (by simp)] at ht
      have hmem := hstop ht ha (List.cons_ne_nil _ _)
      simp [places, stop] at hmem
    | spawned ha hb =>
      rw [hb, record_calling (by simp)] at ht
      have hmem := hstop ht ha (List.cons_ne_nil _ _)
      simp [places, stop] at hmem
  | _ => exact hkeep (by simp) rfl

/-- A `stop` from outside returns by unlocking the mutex. -/
theorem unlocks_of_returns (hcalled : s.Called h) (hI : Identity s.life)
    (hstep : bus.step s.life (.step t) = some q) (hend : q.threads t = .caller [])
    (ht : h.calling t = some .stop) : (s.life.threads t).rest? = some [.unlock] := by
  cases threadStep hstep with
  | @ran stmt rest r ha hexec =>
    have hsame : r.1.threads t = s.life.threads t := by
      refine (Workers.threads_exec hexec t).resolve_right fun hended => ?_
      simp [hended.1, WorkerPc.rest?] at ha
    have hback : (s.life.threads t).withRest r.2 = .caller [] := by
      rw [← hsame, ← hend]
      simp only [Workers.setRest, Workers.setThread, Function.update_self]
    have hcaller : r.2 = [] ∧ (s.life.threads t).published = false := by
      cases hpc : s.life.threads t <;> simp_all [WorkerPc.withRest, WorkerPc.published]
    obtain ⟨c, hc, hmem⟩ := hcalled t _ ha (List.cons_ne_nil _ _)
    obtain rfl := Option.some.inj (ht.symm.trans hc)
    rcases (stop_cases hmem hexec).2 hcaller.1 with hunlock | hid
    · rw [ha, hunlock]
    · have hpublished := (hI.workerId t).mpr hid
      rw [hcaller.2] at hpublished
      cases hpublished
  | moved hworker _ _ _ _ _ hthreads =>
    rw [hthreads, Function.update_self] at hend
    rw [hend] at hworker
    exact absurd hworker.2 (by simp [WorkerPc.isWorker])
  | left hpc =>
    simp [Workers.setThread] at hend

/-! ## The invariant of a run -/

/-- **The invariant of every run.** -/
structure Inv (s : Telemetry) (h : History) : Prop where
  custody : bus.Custody s.life
  identity : Identity s.life
  attended : s.Attended
  served : s.queue.Served (h.dispatched.map Prod.fst) s.hand
  ordered : s.queue.Ordered tag s.published s.publishing
  numbered : s.Numbered h
  logged : s.Logged h
  delivered : s.Delivered h
  called : s.Called h
  driven : s.Driven
  unlocks : s.Unlocks h

/-- No statement of the bus exchanges a flag. -/
theorem unreplaced (hcalled : s.Called h) (b : WorkerLabel TelemetryBus.Call) :
    Unreplaced s.life b := by
  cases b with
  | step t =>
    intro flag rest ht
    obtain ⟨c, -, hmem⟩ := hcalled t _ ht (List.cons_ne_nil _ _)
    cases flag
    exact absurd hmem (by cases c <;> simp [places, start, stop])
  | _ => trivial

theorem Inv.step (hi : s.Inv h) (hstep : s.Steps a s') : s'.Inv (record s a s' h) := by
  have hlife : bus.Custody s'.life ∧ Identity s'.life := by
    cases hstep with
    | @life b life may step =>
      exact ⟨hi.custody.step bus_disciplined (unreplaced hi.called b) step,
        hi.identity.step bus_disciplined hi.custody step⟩
    | _ => exact ⟨hi.custody, hi.identity⟩
  exact {
    custody := hlife.1
    identity := hlife.2
    attended := hi.attended.step hi.served.one hstep
    served := served_step hi.served hi.attended hstep
    ordered := ordered_step hi.ordered hstep
    numbered := hi.numbered.step hstep
    logged := hi.logged.step hi.served.sound hstep
    delivered := hi.delivered.step hi.attended hstep
    called := hi.called.step hstep
    driven := hi.driven.step hi.custody hi.called hstep
    unlocks := hi.unlocks.step hi.called hi.custody hstep }

/-- **Every accepted record has been delivered** when a `stop` from outside unlocks the mutex. -/
theorem Inv.all_delivered (hi : s.Inv h) (hdry : s.Spent → s.queue.Dry)
    (hcalling : h.calling t = some .stop) (ht : (s.life.threads t).rest? = some [.unlock]) :
    ∀ p ∈ h.accepted, p ∈ h.delivered := by
  have hhandle := hi.unlocks t hcalling ht
  have hnone (u : WorkerId) : phase (s.life.threads u) = .outside := by
    by_contra hu
    have hworker := (hi.custody.handle u).mp (isWorker_iff_phase.mpr hu)
    rw [hhandle] at hworker
    cases hworker
  have hturns (u : WorkerId) : ¬ s.Turns u := by simp [Turns, hnone u]
  -- who creates the egress thread has the mutex
  have hspawns (u : WorkerId) : ¬ Spawns s.life u := by
    rintro ⟨rest, hu⟩
    have hfits := (Stmt.disciplined_cons.mp (hi.custody.code u _ hu)).1
    have hheld : Stmt.held rest = true := (Bool.and_eq_true ..|>.mp hfits).1
    obtain rfl : u = t := hi.custody.mutex.unique
      (by rw [WorkerPc.holds_of_rest? hu]; exact hheld) (by rw [WorkerPc.holds_of_rest? ht]; rfl)
    rw [hu] at ht
    cases ht
  have hcleared : s.life.flags .running = false := by
    refine Bool.eq_false_iff.mpr fun hset => ?_
    obtain ⟨u, hspawn | hruns⟩ := hi.driven.runs hset
    · exact hspawns u hspawn
    · simp [Runs, hnone u] at hruns
  have hidle : s.egress = .idle := by
    by_contra hne
    obtain ⟨u, hu⟩ := hi.attended.egress hne
    exact hturns u hu
  have hfree (u : WorkerId) : (s.queue.pcs u).consumes = false :=
    hi.attended.free (by simp [hidle]) u
  have hempty := (hdry ⟨hcleared, hspawns, fun u hu => absurd (hnone u) hu⟩).empty
  have hserved := hi.served
  rw [show s.hand = none by simp only [hand, hidle]] at hserved
  have hlog := hserved.all hfree hempty
  have hdelivered := hi.delivered
  rw [Delivered, if_neg (by simp [hidle]), List.append_nil] at hdelivered
  intro p hp
  rw [hdelivered, hlog]
  exact hi.logged.accepted p hp

/-! ## The results -/

/-- The record is still in the queue. -/
def Queued (s : Telemetry) (p : Publication) : Prop := p ∈ s.queue.log.drop s.queue.dequeuePos

/-- The egress thread has taken the record out, and has not dispatched it yet. -/
def AtHand (s : Telemetry) (p : Publication) : Prop :=
  s.egress = .dispatch p ∨ ∃ t pos, s.queue.log[pos]? = some p ∧
    (s.queue.pcs t = .read pos ∨ s.queue.pcs t = .release p pos ∨
      s.queue.pcs t = .dequeued (some p))

/-- **The records are dispatched in order.** -/
structure InOrder (s : Telemetry) (h : History) : Prop where
  /-- at most once -/
  once : (h.dispatched.map Prod.fst).Nodup
  /-- once, unless it is still in the queue -/
  dispatched : ∀ p ∈ h.accepted, p ∈ h.dispatched.map Prod.fst ∨ s.Queued p ∨ s.AtHand p
  /-- those of one publisher in the order of publication -/
  order : (h.dispatched.map Prod.fst).Pairwise fun x y =>
    x.publisher = y.publisher → x.number < y.number
  /-- the frames of a channel are numbered without a gap -/
  numbers : ∀ channel, (h.frames channel).map TelemetryFrame.seq =
    List.range (h.frames channel).length
  frame : ∀ d ∈ h.dispatched, d.2.toRecord = d.1.toRecord

/-- **What is promised of the records.** -/
structure Delivers (s : Telemetry) (h : History) : Prop extends InOrder s h where
  /-- a `stop` from outside, called while no `publish` is in flight, leaves nothing behind -/
  drained : ∀ records ∈ h.left, records = []

/-- A record that has been taken out, and was not dispatched. -/
theorem Inv.atHand (hi : s.Inv h) {p : Publication} {i : ℕ} (hp : s.queue.log[i]? = some p)
    (hle : (h.dispatched.map Prod.fst).length ≤ i) (hlt : i < s.queue.dequeuePos) : s.AtHand p := by
  by_cases hholds : ∃ t, (s.queue.pcs t).holds = true
  · obtain ⟨t, ht⟩ := hholds
    have hnext := hi.served.holding t ht
    have hfollows := hi.served.one.follows t
    refine .inr ⟨t, i, hp, ?_⟩
    cases hpc : s.queue.pcs t with
    | read pos =>
      rw [hpc] at hfollows
      obtain rfl : pos = i := by change pos + 1 = _ at hfollows; omega
      exact .inl rfl
    | release item pos =>
      rw [hpc] at hfollows
      obtain rfl : pos = i := by change pos + 1 = _ at hfollows; omega
      obtain rfl := Option.some.inj ((hi.served.sound.release hpc).symm.trans hp)
      exact .inr (.inl rfl)
    | dequeued item =>
      cases item with
      | none =>
        rw [hpc] at ht
        cases ht
      | some item =>
        rw [hpc] at hfollows
        obtain ⟨pos, hpos, hitem⟩ := hfollows
        obtain rfl : pos = i := by omega
        obtain rfl := Option.some.inj (hitem.symm.trans hp)
        exact .inr (.inr rfl)
    | _ =>
      rw [hpc] at ht
      cases ht
  · have hlength := hi.served.idle fun t => Bool.eq_false_iff.mpr fun ht => hholds ⟨t, ht⟩
    have hprefix := hi.served.isPrefix
    cases hhand : s.hand with
    | none =>
      rw [hhand, Option.toList_none, List.length_nil] at hlength
      omega
    | some q =>
      rw [hhand, Option.toList_some] at hlength hprefix
      rw [List.length_singleton] at hlength
      obtain rfl : i = (h.dispatched.map Prod.fst).length := by omega
      have hq := List.prefix_iff_getElem?.mp hprefix (h.dispatched.map Prod.fst).length (by simp)
      obtain rfl : p = q := by simpa using hp.symm.trans hq
      rw [hand] at hhand
      split at hhand
      next hegress => exact .inl (hegress.trans (congrArg _ (Option.some.inj hhand)))
      next => cases hhand

theorem Inv.inOrder (hi : s.Inv h) : s.InOrder h := by
  have hprefix : h.dispatched.map Prod.fst <+: s.queue.log :=
    (List.prefix_append ..).trans hi.served.isPrefix
  refine ⟨hi.ordered.nodup.sublist hprefix.sublist, fun p hp => ?_,
    hi.ordered.log.sublist hprefix.sublist, fun channel => ?_, hi.numbered.frame⟩
  · obtain ⟨i, hi'⟩ := List.mem_iff_getElem?.mp (hi.logged.accepted p hp)
    by_cases hserved : i < (h.dispatched.map Prod.fst).length
    · have hsame := List.prefix_iff_getElem?.mp hprefix i hserved
      obtain rfl := Option.some.inj (hi'.symm.trans hsame)
      exact .inl (List.getElem_mem hserved)
    · by_cases hqueued : s.queue.dequeuePos ≤ i
      · refine .inr (.inl (List.mem_of_getElem? (i := i - s.queue.dequeuePos) ?_))
        rw [List.getElem?_drop, Nat.add_sub_cancel' hqueued, hi']
      · exact .inr (.inr (hi.atHand hi' (Nat.le_of_not_lt hserved) (Nat.lt_of_not_le hqueued)))
  · have hnumbers := hi.numbered.numbers channel
    have hlength := congrArg List.length hnumbers
    rw [List.length_map, List.length_range] at hlength
    rw [hnumbers, hlength]

end Telemetry

namespace TelemetryBus

variable {capacity : QueueCapacity} {p : Telemetry × History}

theorem inv_init : Telemetry.Inv { queue := { capacity := capacity.capacity_ } } {} where
  custody := WorkerClass.custody_init
  identity := WorkerClass.identity_init
  attended := ⟨fun t ht => (by cases ht), fun h => absurd rfl h⟩
  served := .empty capacity.two_le
  ordered := .empty
  numbered := ⟨fun channel => rfl, fun d hd => by cases hd⟩
  logged := ⟨fun p hp => (by cases hp), fun t p hp => (by cases hp)⟩
  delivered := rfl
  called := fun t rest hr => by cases hr
  driven := ⟨fun h => (by cases h), fun t ht => (by rcases ht with ht | ht <;> cases ht)⟩
  unlocks := fun t ht => by cases ht

theorem inv_of_reachable (hp : (observed capacity).Reachable p) : p.1.Inv p.2 := by
  refine hp.invariant (I := fun p => p.1.Inv p.2) ⟨?_, ?_⟩
  · rintro ⟨s, h⟩ ⟨rfl, rfl⟩
    exact inv_init
  · rintro ⟨s, h⟩ a ⟨s', h'⟩ hi - hstep
    obtain ⟨hs, hrecord⟩ := Machine.withHistory_step.mp hstep
    dsimp only at hrecord
    subst hrecord
    exact hi.step (Telemetry.steps hs)

/-- **In every run the records are dispatched in order**, each at most once. -/
theorem inOrder_of_reachable (hp : (observed capacity).Reachable p) : p.1.InOrder p.2 :=
  (inv_of_reachable hp).inOrder

/-- What holds besides, while the last drain gives up only when nobody enqueues. -/
def Drained (s : Telemetry) (h : History) : Prop :=
  (s.Spent → s.queue.Dry) ∧ ∀ records ∈ h.left, records = []

theorem drained_step {s s' : Telemetry} {h : History} {a : Label} (hi : s.Inv h)
    (hd : Drained s h) (hG : s.Settled a) (hstep : s.Steps a s') :
    Drained s' (record s a s' h) := by
  refine ⟨Telemetry.dry_step hd.1 hi.driven hi.attended hi.custody hi.served hG hstep, ?_⟩
  cases hstep with
  | @life b life may step =>
    cases b with
    | step t =>
      simp only [record]
      split_ifs with hreturns
      · simp only [stopReturns, Bool.and_eq_true, decide_eq_true_eq] at hreturns
        obtain ⟨⟨hend, hcalling⟩, -⟩ := hreturns
        have hunlocks := Telemetry.unlocks_of_returns hi.called hi.identity step hend hcalling
        have hall := hi.all_delivered hd.1 hcalling hunlocks
        intro records hrecords
        rcases List.mem_append.mp hrecords with hold | hnew
        · exact hd.2 records hold
        · rw [List.mem_singleton.mp hnew]
          simpa using hall
      · exact hd.2
    | _ => rw [Telemetry.record_left (by simp)]; exact hd.2
  | _ => rw [Telemetry.record_left (by simp)]; exact hd.2

/-- **Every record is delivered as promised** in the runs in which the last drain of the egress
thread gives up only when no `publish` that has seen `running_` set is still enqueuing. -/
theorem delivers
    (hp : (observed capacity).ReachableUnder (fun q a => q.1.Settled a) p) :
    p.1.Delivers p.2 := by
  have hinv : p.1.Inv p.2 ∧ Drained p.1 p.2 := by
    refine hp.invariant (I := fun p => p.1.Inv p.2 ∧ Drained p.1 p.2) ⟨?_, ?_⟩
    · rintro ⟨s, h⟩ ⟨rfl, rfl⟩
      exact ⟨inv_init, fun _ => ⟨fun _ => rfl, rfl⟩, fun _ hrecords => by cases hrecords⟩
    · rintro ⟨s, h⟩ a ⟨s', h'⟩ ⟨hi, hd⟩ hG hstep
      obtain ⟨hs, hrecord⟩ := Machine.withHistory_step.mp hstep
      dsimp only at hrecord
      subst hrecord
      exact ⟨hi.step (Telemetry.steps hs), drained_step hi hd hG (Telemetry.steps hs)⟩
  exact { toInOrder := hinv.1.inOrder, drained := hinv.2.2 }

/-! ## Two runs

The thread `0` starts and stops the bus, the thread `1` publishes, and the thread `2` is the egress
thread. -/

def imu : Record := { channel := "imu", timestampNs := 1, payload := [] }

/-- The bus when it is constructed. -/
def fresh : Telemetry × History := ({ queue := { capacity := 16 } }, {})

theorem fresh_init : (observed ThreadSafeQueue.smallest).init fresh := ⟨rfl, rfl⟩

/-- `start`, up to its return. -/
def started : List Label :=
  .life (.call 0 .start) :: List.replicate 5 (.life (.step 0)) ++
    [.life (.spawn 0 2), .life (.step 0)]

/-- A `stop`, a `start`, and a record that is published and dispatched. -/
def inTime : List Label :=
  [.life (.arrive 0), .life (.arrive 1), .life (.call 0 .stop)] ++
    List.replicate 6 (.life (.step 0)) ++ started ++ [.publish 1 imu, .test 1] ++
    List.replicate 5 (.queue 1 false) ++ [.returns 1] ++ List.replicate 3 (.life (.step 2)) ++
    [.poll 2] ++ List.replicate 5 (.queue 2 false) ++ [.returns 2, .dispatch 2, .callbacksReturn 2]

theorem delivers_inTime : ∃ p, (observed ThreadSafeQueue.smallest).exec fresh inTime = some p ∧
    p.2.accepted = [⟨imu, 1, 0⟩] ∧ p.2.left = [[]] ∧ p.1.Delivers p.2 := by
  have hrun : ((observed ThreadSafeQueue.smallest).exec fresh inTime).any
      (fun p => p.2.accepted == [⟨imu, 1, 0⟩] && p.2.left == [[]]) = true := by decide +kernel
  obtain ⟨p, hp, hends⟩ := (Option.any_eq_true _ _).mp hrun
  rw [Bool.and_eq_true, beq_iff_eq, beq_iff_eq] at hends
  -- the egress thread is in no drain
  have hchecks : (observed ThreadSafeQueue.smallest).checks (fun q a => match a with
      | .queue t _ => decide (q.1.life.threads t ≠ .last [])
      | _ => true) fresh inTime = true := by decide +kernel
  have hallowed := Machine.allowed_of_checks (G := fun q a => Telemetry.Settled q.1 a)
    (fun q a hg => ?_) hchecks
  · exact ⟨p, hp, hends.1, hends.2, delivers (.exec (.init fresh_init) hallowed hp)⟩
  · cases a with
    | queue t spurious => exact fun pos hlast => absurd hlast (of_decide_eq_true hg)
    | _ => trivial

/-- A `publish` sees `running_` set and enqueues when the egress thread has ended; a second `stop`
finds nobody to dispatch the record. -/
def late : List Label :=
  [.life (.arrive 0), .life (.arrive 1)] ++ started ++
    [.publish 1 imu, .test 1, .life (.call 0 .stop)] ++ List.replicate 4 (.life (.step 0)) ++
    [.life (.step 2), .life (.step 2), .poll 2, .queue 2 false, .queue 2 false, .returns 2] ++
    List.replicate 3 (.life (.step 2)) ++ List.replicate 3 (.life (.step 0)) ++
    List.replicate 5 (.queue 1 false) ++ [.returns 1, .life (.call 0 .stop)] ++
    List.replicate 6 (.life (.step 0))

theorem inOrder_of_reachable_late : ∃ p,
    (observed ThreadSafeQueue.smallest).exec fresh late = some p ∧ p.1.InOrder p.2 := by
  have hrun : ((observed ThreadSafeQueue.smallest).exec fresh late).isSome = true := by
    decide +kernel
  obtain ⟨p, hp⟩ := Option.isSome_iff_exists.mp hrun
  exact ⟨p, hp, inOrder_of_reachable (.exec (.init fresh_init) hp)⟩

/-- A `stop` leaves an accepted record in the queue. -/
theorem stop_leaves_record :
    ¬ ∀ capacity p, (observed capacity).Reachable p → p.1.Delivers p.2 := by
  intro h
  have hrun : ((observed ThreadSafeQueue.smallest).exec fresh late).any
      (fun p => p.2.left == [[⟨imu, 1, 0⟩]]) = true := by decide +kernel
  obtain ⟨p, hp, hleft⟩ := (Option.any_eq_true _ _).mp hrun
  rw [beq_iff_eq] at hleft
  have hdrained := (h ThreadSafeQueue.smallest p (.exec (.init fresh_init) hp)).drained
  rw [hleft] at hdrained
  exact absurd (hdrained _ (List.mem_singleton_self _)) (by simp)

end TelemetryBus

end AxonVex
