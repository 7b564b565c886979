import AxonVex.Logging.Logger
import AxonVex.Machinery.ServedRing
import Mathlib.Data.Finset.Card

/-!
# Logging/Written — calls of `log`, and the queue between them and the processing thread

Every step is one of `Steps`.  What each of them keeps: where `start` and `stop` stand (`Cycle`),
that only the processing thread dequeues (`Attended`) and serves the log of the queue in its order
(`served_step`, `ordered_step`), that every call is counted once (`Counted`), and that what was
accepted is in the log (`Logged`).
-/

namespace AxonVex

open Machinery

namespace MessageLogger

open Logging

/-- **What a step does.** -/
inductive Steps (s : MessageLogger) : Logging.Label → MessageLogger → Prop
  | filtered {t : LogThread} {message : LogMessage} (may : s.mayLog t = true)
      (below : message.level.value < s.min_level_.value) : Steps s (.log t message) s
  | log {t : LogThread} {message : LogMessage} (may : s.mayLog t = true)
      (passes : ¬ message.level.value < s.min_level_.value) :
      Steps s (.log t message) (s.goto t (.allocate message))
  | allocate {t : LogThread} {message : LogMessage} {b : ℕ} (at_ : s.logging t = .allocate message)
      (unused : s.allocated b = false) :
      Steps s (.allocate t (some b)) { s.goto t (.initialize_ ⟨b, t, s.called t, message⟩) with
        allocated := Function.update s.allocated b true
        called := Function.update s.called t (s.called t + 1) }
  | exhausted {t : LogThread} {message : LogMessage} (at_ : s.logging t = .allocate message) :
      Steps s (.allocate t none) (s.goto t .drop)
  | enqueue {t : LogThread} {p : Pointer} {q : TicketRing LogThread Pointer}
      (at_ : s.logging t = .initialize_ p) (step : s.message_queue_.step (.enqueue t p) = some q) :
      Steps s (.step t) { s.goto t .enqueues with
        message_queue_ := q
        memory := Function.update s.memory p.block (some p.call.message) }
  | deallocate {t : LogThread} {p : Pointer} (at_ : s.logging t = .deallocate p) :
      Steps s (.step t)
        { s.goto t .drop with allocated := Function.update s.allocated p.block false }
  | drop {t : LogThread} (at_ : s.logging t = .drop) :
      Steps s (.step t) { s.goto t .out with messages_dropped := s.messages_dropped + 1 }
  | count {t : LogThread} {c : LogCall} (at_ : s.logging t = .count c) :
      Steps s (.step t) { s.goto t .out with messages_logged := s.messages_logged + 1 }
  | queue {t : LogThread} {spurious : Bool} {q : TicketRing LogThread Pointer}
      (step : s.message_queue_.step (.step t spurious) = some q) :
      Steps s (.queue t spurious) { s with message_queue_ := q }
  | enqueued {t : LogThread} {p : Pointer} {accepted : Bool} {q : TicketRing LogThread Pointer}
      (at_ : s.message_queue_.pcs t = .enqueued p accepted)
      (step : s.message_queue_.step (.leave t) = some q) :
      Steps s (.returns t)
        { s.goto t (if accepted then .count p.call else .deallocate p) with message_queue_ := q }
  | dequeued {t : LogThread} {m : Mode} {item : Option Pointer} {q : TicketRing LogThread Pointer}
      (at_ : s.message_queue_.pcs t = .dequeued item) (loop : s.loop = .dequeues m)
      (step : s.message_queue_.step (.leave t) = some q) :
      Steps s (.returns t) { s with message_queue_ := q, loop := afterDequeue m item }
  | setLevel {level : LogLevel} : Steps s (.setLevel level) { s with min_level_ := level }
  | refused (control : s.control = .idle) (running : s.running_ = true) : Steps s .start s
  | start (control : s.control = .idle) (running : s.running_ = false) :
      Steps s .start { s with running_ := true, control := .clears }
  | idle (control : s.control = .idle) (running : s.running_ = false) : Steps s .stop s
  | stop (control : s.control = .idle) (running : s.running_ = true) :
      Steps s .stop { s with control := .requests }
  | clears (at_ : s.control = .clears) :
      Steps s .control { s with shutdown_requested_ := false, control := .spawns }
  | requests (at_ : s.control = .requests) :
      Steps s .control { s with shutdown_requested_ := true, control := .joins }
  | joins (at_ : s.control = .joins) (loop : s.loop = .absent ∨ s.loop = .finished) :
      Steps s .control { s with loop := .absent, control := .ends }
  | ends (at_ : s.control = .ends) :
      Steps s .control { s with running_ := false, control := .idle }
  | spawn {t : LogThread} (at_ : s.control = .spawns) (quiet : s.quiet t = true) :
      Steps s (.spawn t) { s with loop := .test, worker := t, control := .idle }
  | test (at_ : s.loop = .test) :
      Steps s .loop { s with loop := .poll (if s.shutdown_requested_ then .drain else .turn) }
  | poll {m : Mode} {q : TicketRing LogThread Pointer} (at_ : s.loop = .poll m)
      (step : s.message_queue_.step (.dequeue s.worker) = some q) :
      Steps s .loop { s with message_queue_ := q, loop := .dequeues m }
  | write {m : Mode} {p : Pointer} {i : ℕ} (at_ : s.loop = .writes m p i) (lt : i < s.outputs)
      (quiet : s.quiet s.worker = true) :
      Steps s .loop { s with
        written := Function.update s.written i (s.written i ++ [⟨p.call, s.memory p.block⟩])
        loop := .writes m p (i + 1) }
  | processed {m : Mode} {p : Pointer} {i : ℕ} (at_ : s.loop = .writes m p i)
      (le : s.outputs ≤ i) : Steps s .loop { s with loop := .frees m p }
  | free {m : Mode} {p : Pointer} (at_ : s.loop = .frees m p) :
      Steps s .loop { s with
        allocated := Function.update s.allocated p.block false
        loop := if m = .turn then .test else .poll .drain }
  | timeout (at_ : s.loop = .poll .turn) : Steps s .timeout { s with loop := .test }

variable {s s' : MessageLogger} {a : Logging.Label} {t u : LogThread}

theorem steps (h : s.step a = some s') : s.Steps a s' := by
  cases a with
  | log t message =>
    obtain ⟨hmay, rfl⟩ := guarded h
    split_ifs with hlevel
    · exact .filtered hmay hlevel
    · exact .log hmay hlevel
  | allocate t block =>
    change s.allocate t block = some s' at h
    unfold MessageLogger.allocate at h
    split at h
    next message b hpc =>
      obtain ⟨hunused, hsome⟩ := Option.ite_none_left_eq_some.mp h
      exact Option.some.inj hsome ▸ .allocate hpc (Bool.eq_false_iff.mpr hunused)
    next message hpc => exact Option.some.inj h ▸ .exhausted hpc
    next => cases h
  | step t =>
    rw [step, logStep] at h
    split at h
    next p hpc =>
      obtain ⟨q, hq, rfl⟩ := Option.map_eq_some_iff.mp h
      exact .enqueue hpc hq
    next p hpc => exact Option.some.inj h ▸ .deallocate hpc
    next hpc => exact Option.some.inj h ▸ .drop hpc
    next c hpc => exact Option.some.inj h ▸ .count hpc
    next => cases h
  | queue t spurious =>
    obtain ⟨q, hq, rfl⟩ := Option.map_eq_some_iff.mp h
    exact .queue hq
  | returns t =>
    rw [step, queueReturns] at h
    split at h
    next p accepted hpc =>
      obtain ⟨q, hq, rfl⟩ := Option.map_eq_some_iff.mp h
      exact .enqueued hpc hq
    next item hpc =>
      split at h
      next m hloop =>
        obtain ⟨q, hq, rfl⟩ := Option.map_eq_some_iff.mp h
        exact .dequeued hpc hloop hq
      next => cases h
    next => cases h
  | setLevel level => exact Option.some.inj h ▸ .setLevel
  | start =>
    obtain ⟨hcontrol, rfl⟩ := guarded h
    split_ifs with hrunning
    · exact .refused hcontrol hrunning
    · exact .start hcontrol (Bool.eq_false_iff.mpr hrunning)
  | stop =>
    obtain ⟨hcontrol, rfl⟩ := guarded h
    split_ifs with hrunning
    · exact .stop hcontrol hrunning
    · exact .idle hcontrol (Bool.eq_false_iff.mpr hrunning)
  | control =>
    rw [step, controlStep] at h
    split at h
    next hat => exact Option.some.inj h ▸ .clears hat
    next hat => exact Option.some.inj h ▸ .requests hat
    next hat =>
      split at h
      next hloop =>
        have hjoin := Steps.joins hat (.inl hloop)
        rw [← hloop] at hjoin
        exact Option.some.inj h ▸ hjoin
      next hloop => exact Option.some.inj h ▸ .joins hat (.inr hloop)
      next => cases h
    next hat => exact Option.some.inj h ▸ .ends hat
    next => cases h
  | spawn t =>
    obtain ⟨hspawn, hsome⟩ := Option.ite_none_right_eq_some.mp h
    exact Option.some.inj hsome ▸ .spawn hspawn.1 hspawn.2
  | loop =>
    rw [step, loopStep] at h
    split at h
    next hat => exact Option.some.inj h ▸ .test hat
    next m hat =>
      obtain ⟨q, hq, rfl⟩ := Option.map_eq_some_iff.mp h
      exact .poll hat hq
    next m p i hat =>
      obtain ⟨hquiet, hsome⟩ := Option.ite_none_right_eq_some.mp h
      split_ifs at hsome with hlt
      · exact Option.some.inj hsome ▸ .write hat hlt hquiet
      · exact Option.some.inj hsome ▸ .processed hat (Nat.le_of_not_lt hlt)
    next m p hat => exact Option.some.inj h ▸ .free hat
    next => cases h
  | timeout =>
    obtain ⟨hat, hsome⟩ := Option.ite_none_right_eq_some.mp h
    exact Option.some.inj hsome ▸ .timeout hat

/-! ## The cycle of `start` and `stop` -/

/-- The processing thread is in the loop until the shutdown. -/
def turning : Loop → Bool
  | .test => true
  | .poll m => decide (m = .turn)
  | .dequeues m => decide (m = .turn)
  | .writes m _ _ => decide (m = .turn)
  | .frees m _ => decide (m = .turn)
  | _ => false

/-- **What the call of `start` or of `stop` says of the processing thread.** -/
def Cycle (s : MessageLogger) : Prop :=
  match s.control with
  | .idle =>
    if s.running_ then turning s.loop = true ∧ s.shutdown_requested_ = false else s.loop = .absent
  | .clears => s.running_ = true ∧ s.loop = .absent
  | .spawns => s.running_ = true ∧ s.loop = .absent ∧ s.shutdown_requested_ = false
  | .requests =>
    s.running_ = true ∧ turning s.loop = true ∧ s.shutdown_requested_ = false
  | .joins => s.loop ≠ .absent
  | .ends => s.loop = .absent

/-- A step of the processing thread, which leaves the loop for the drain when it is told so. -/
theorem Cycle.loop (h : s.Cycle) {loop : Loop} (hwas : s.loop ≠ .absent) (his : loop ≠ .absent)
    (hturn : turning s.loop = true → turning loop = true ∨ s.shutdown_requested_ = true)
    (hcontrol : s'.control = s.control) (hrunning : s'.running_ = s.running_)
    (hshutdown : s'.shutdown_requested_ = s.shutdown_requested_) (hloop : s'.loop = loop) :
    s'.Cycle := by
  rw [Cycle, hcontrol, hrunning, hshutdown, hloop]
  rw [Cycle] at h
  split at h
  · split_ifs at h with hrun
    · rw [if_pos hrun]
      exact ⟨(hturn h.1).resolve_right (by simp [h.2]), h.2⟩
    · exact absurd h hwas
  · exact absurd h.2 hwas
  · exact absurd h.2.1 hwas
  · exact ⟨h.1, (hturn h.2.1).resolve_right (by simp [h.2.2]), h.2.2⟩
  · exact his
  · exact absurd h hwas

/-- The same cycle. -/
theorem Cycle.congr (h : s.Cycle) (hcontrol : s'.control = s.control)
    (hrunning : s'.running_ = s.running_) (hloop : s'.loop = s.loop)
    (hshutdown : s'.shutdown_requested_ = s.shutdown_requested_) : s'.Cycle := by
  rw [Cycle, hcontrol, hrunning, hshutdown, hloop]
  exact h

/-- In `start`, while the thread is to be created, there is none. -/
theorem Cycle.absent (h : s.Cycle) (hcontrol : s.control = .spawns) : s.loop = .absent := by
  rw [Cycle, hcontrol] at h
  exact h.2.1

theorem Cycle.step (h : s.Cycle) (hstep : s.Steps a s') : s'.Cycle := by
  cases hstep with
  | start control running =>
    rw [Cycle, control, running] at h
    exact ⟨rfl, h⟩
  | stop control running =>
    simp only [Cycle, control, running, if_true] at h
    exact ⟨running, h⟩
  | clears at_ =>
    rw [Cycle, at_] at h
    exact ⟨h.1, h.2, rfl⟩
  | requests at_ =>
    rw [Cycle, at_] at h
    intro habsent
    change s.loop = .absent at habsent
    rw [habsent] at h
    cases h.2.1
  | joins at_ loop => rfl
  | ends at_ =>
    rw [Cycle, at_] at h
    exact h
  | spawn at_ quiet =>
    rw [Cycle, at_] at h
    simp [Cycle, h.1, h.2.2, turning]
  | test at_ =>
    refine h.loop (by simp [at_]) (by simp) (fun _ => ?_) rfl rfl rfl rfl
    cases hshutdown : s.shutdown_requested_ <;> simp [turning]
  | @dequeued t m item q at_ loop step =>
    refine h.loop (by simp [loop]) ?_ (fun hturn => .inl ?_) rfl rfl rfl rfl
    · cases item <;> cases m <;> simp [afterDequeue]
    · rw [loop, turning, decide_eq_true_eq] at hturn
      subst hturn
      cases item <;> rfl
  | poll at_ step =>
    exact h.loop (by simp [at_]) (by simp) (fun hturn => .inl (by rwa [at_] at hturn)) rfl rfl rfl rfl
  | write at_ lt quiet =>
    exact h.loop (by simp [at_]) (by simp) (fun hturn => .inl (by rwa [at_] at hturn)) rfl rfl rfl rfl
  | processed at_ le =>
    exact h.loop (by simp [at_]) (by simp) (fun hturn => .inl (by rwa [at_] at hturn)) rfl rfl rfl rfl
  | @free m p at_ =>
    refine h.loop (by simp [at_]) ?_ (fun hturn => .inl ?_) rfl rfl rfl rfl
    · cases m <;> simp
    · rw [at_, turning, decide_eq_true_eq] at hturn
      subst hturn
      rfl
  | timeout at_ => exact h.loop (by simp [at_]) (by simp) (fun _ => .inl rfl) rfl rfl rfl rfl
  | filtered may below => exact h
  | refused control running => exact h
  | idle control running => exact h
  | _ => exact h.congr rfl rfl rfl rfl

/-! ## The processing thread -/

/-- **Only the processing thread dequeues.** -/
def Attended (s : MessageLogger) : Prop :=
  ∀ t, (s.message_queue_.pcs t).consumes = true → t = s.worker ∧ ∃ m, s.loop = .dequeues m

/-- While the processing thread is elsewhere nobody dequeues. -/
theorem Attended.free (h : s.Attended) (hne : ∀ m, s.loop ≠ .dequeues m) (u : LogThread) :
    (s.message_queue_.pcs u).consumes = false :=
  Bool.eq_false_iff.mpr fun hu => by
    obtain ⟨-, m, hm⟩ := h u hu
    exact hne m hm

/-- A step at which nobody dequeues. -/
theorem Attended.of_free (h : ∀ u, (s.message_queue_.pcs u).consumes = false) : s.Attended := by
  intro u hu
  rw [h u] at hu
  cases hu

theorem Attended.step (h : s.Attended) (hcycle : s.Cycle) (hstep : s.Steps a s') :
    s'.Attended := by
  cases hstep with
  | @enqueue t p q at_ step =>
    intro u hu
    have hut : u ≠ t := by
      rintro rfl
      rw [show q.pcs u = _ from (TicketRing.pcs_enqueue step).2] at hu
      cases hu
    exact h u (TicketRing.pcs_other step hut ▸ hu)
  | queue step => exact fun u hu => h u (TicketRing.consumes_step step u ▸ hu)
  | @enqueued t p accepted q at_ step =>
    intro u hu
    have hut : u ≠ t := by
      rintro rfl
      rw [show q.pcs u = _ from TicketRing.pcs_leave step] at hu
      cases hu
    exact h u (TicketRing.pcs_other step hut ▸ hu)
  | @dequeued t m item q at_ loop step =>
    refine .of_free fun u => Bool.eq_false_iff.mpr fun hu => ?_
    have hut : u ≠ t := by
      rintro rfl
      rw [show q.pcs u = _ from TicketRing.pcs_leave step] at hu
      cases hu
    have hworker := (h u (TicketRing.pcs_other step hut ▸ hu)).1
    exact hut (hworker.trans (h t (by rw [at_]; rfl)).1.symm)
  | joins at_ loop =>
    exact .of_free (h.free (by rcases loop with hloop | hloop <;> simp [hloop]))
  | spawn at_ quiet => exact .of_free (h.free (by simp [hcycle.absent at_]))
  | test at_ => exact .of_free (h.free (by simp [at_]))
  | @poll m q at_ step =>
    intro u hu
    refine ⟨?_, m, rfl⟩
    by_contra hut
    rw [show q.pcs u = _ from TicketRing.pcs_other step hut] at hu
    rw [h.free (by simp [at_]) u] at hu
    cases hu
  | write at_ lt quiet => exact .of_free (h.free (by simp [at_]))
  | processed at_ le => exact .of_free (h.free (by simp [at_]))
  | free at_ => exact .of_free (h.free (by simp [at_]))
  | timeout at_ => exact .of_free (h.free (by simp [at_]))
  | _ => exact h

/-! ## The messages, in the order of the queue -/

variable {h : History}

/-- The message that the processing thread is at. -/
def hand (s : MessageLogger) : Option Pointer :=
  match s.loop with
  | .writes _ p _ => some p
  | .frees _ p => some p
  | _ => none

theorem record_processed (ha : ∀ m p, a = .loop → s.loop ≠ .frees m p) :
    (record s a s' h).processed = h.processed := by
  unfold record
  split <;> try rfl
  · split_ifs <;> rfl
  · split <;> rfl
  · split_ifs <;> rfl
  · split_ifs <;> rfl
  · split
    · next hfrees => exact absurd hfrees (ha _ _ rfl)
    · rfl

/-- **Every step keeps the order of the queue.** -/
theorem served_step (hs : s.message_queue_.Served h.processed s.hand) (ha : s.Attended)
    (hcycle : s.Cycle) (hstep : s.Steps a s') :
    s'.message_queue_.Served (record s a s' h).processed s'.hand := by
  -- the processing thread goes on with nothing, or with the same message, at hand
  have hkeep (hprocessed : (record s a s' h).processed = h.processed)
      (hqueue : s'.message_queue_ = s.message_queue_) (hhand : s'.hand = s.hand) :
      s'.message_queue_.Served (record s a s' h).processed s'.hand := by
    rw [hprocessed, hqueue, hhand]
    exact hs
  cases hstep with
  | allocate at_ unused => exact hs
  | exhausted at_ => exact hs
  | setLevel => exact hs
  | refused control running => exact hs
  | start control running => exact hs
  | joins at_ loop =>
    refine hkeep (record_processed (by simp)) rfl ?_
    rcases loop with hloop | hloop <;> simp [hand, hloop]
  | spawn at_ quiet => exact hkeep rfl rfl (by simp [hand, hcycle.absent at_])
  | enqueue at_ step =>
    rw [record_processed (by simp)]
    exact hs.enqueue step
  | queue step => exact hs.step step
  | enqueued at_ step => exact hs.enqueued at_ step
  | @dequeued t m item q at_ loop step =>
    have hnext := hs.dequeued at_ step
    cases item with
    | none => cases m <;> exact hnext
    | some p => exact hnext
  | test at_ =>
    exact hkeep (record_processed (by simp [at_])) rfl (by simp [hand, at_])
  | @poll m q at_ step =>
    rw [record_processed (by simp [at_])]
    rw [show s.hand = none by simp [hand, at_]] at hs
    exact hs.dequeue (ha.free (by simp [at_])) step
  | write at_ lt quiet =>
    exact hkeep (record_processed (by simp [at_])) rfl (by simp [hand, at_])
  | processed at_ le =>
    exact hkeep (record_processed (by simp [at_])) rfl (by simp [hand, at_])
  | @free m p at_ =>
    rw [show s.hand = some p by simp [hand, at_]] at hs
    have hserved := hs.serve
    have hprocessed : (record s .loop { s with
        allocated := Function.update s.allocated p.block false
        loop := if m = .turn then .test else .poll .drain } h).processed =
        h.processed ++ [p] := by simp only [record, at_]
    rw [hprocessed]
    cases m <;> exact hserved
  | timeout at_ => exact hkeep rfl rfl (by simp [hand, at_])
  | _ => exact hkeep (record_processed (by simp)) rfl rfl

/-- The thread and the number of a call. -/
def tag (p : Pointer) : LogThread × ℕ := (p.call.thread, p.call.number)

/-- The pointer that a thread is about to enqueue. -/
def waits? : LogPc → Option Pointer
  | .initialize_ p => some p
  | _ => none

def waiting (s : MessageLogger) (t : LogThread) : Option Pointer := waits? (s.logging t)

/-- One thread goes on. -/
theorem waiting_update (t : LogThread) (pc : LogPc)
    (hlogging : s'.logging = Function.update s.logging t pc) :
    s'.waiting = Function.update s.waiting t (waits? pc) := by
  funext u
  rw [waiting, hlogging]
  by_cases hut : u = t
  · subst hut
    rw [Function.update_self, Function.update_self]
  · rw [Function.update_of_ne hut, Function.update_of_ne hut, waiting]

/-- **Every step keeps the order of the calls.** -/
theorem ordered_step (ho : s.message_queue_.Ordered tag s.called s.waiting)
    (hcalls : ∀ t, s.logging t ≠ .enqueues → (s.message_queue_.pcs t).offers? = none)
    (hstep : s.Steps a s') : s'.message_queue_.Ordered tag s'.called s'.waiting := by
  -- a thread goes on, and is not about to enqueue
  have hgoes {t : LogThread} {pc : LogPc} {q : TicketRing LogThread Pointer}
      (hq : q.Ordered tag s.called s.waiting) (hpc : waits? pc = none)
      (hlogging : s'.logging = Function.update s.logging t pc) :
      q.Ordered tag s.called s'.waiting := by
    rw [waiting_update t pc hlogging, hpc]
    exact hq.drop
  cases hstep with
  | log may passes => exact hgoes ho rfl rfl
  | exhausted at_ => exact hgoes ho rfl rfl
  | deallocate at_ => exact hgoes ho rfl rfl
  | drop at_ => exact hgoes ho rfl rfl
  | count at_ => exact hgoes ho rfl rfl
  | @allocate t message b at_ unused =>
    rw [waiting_update (s := s) t (.initialize_ ⟨b, t, s.called t, message⟩) rfl]
    exact ho.call (hcalls t (by simp [at_])) rfl
  | @enqueue t p q at_ step =>
    rw [waiting_update (s := s) t .enqueues rfl]
    exact ho.enqueue (by rw [waiting, at_]; rfl) step
  | queue step => exact ho.step step
  | @enqueued t p accepted q at_ step =>
    refine hgoes (ho.elsewhere (.inr ⟨_, rfl⟩) step) ?_ rfl
    cases accepted <;> rfl
  | dequeued at_ loop step => exact ho.elsewhere (.inr ⟨_, rfl⟩) step
  | poll at_ step => exact ho.elsewhere (.inl ⟨_, rfl⟩) step
  | _ => exact ho

/-! ## Where the threads stand in `log` and in the queue -/

/-- **A thread is in an enqueue** only while it is so in `log`. -/
def Aligned (s : MessageLogger) : Prop :=
  ∀ t, s.logging t ≠ .enqueues →
    (s.message_queue_.pcs t).isOut = true ∨ (s.message_queue_.pcs t).consumes = true

theorem Aligned.offers (h : s.Aligned) (ht : s.logging t ≠ .enqueues) :
    (s.message_queue_.pcs t).offers? = none := by
  cases hpc : s.message_queue_.pcs t with
  | enqueue item => simpa [hpc, RingPc.isOut, RingPc.consumes] using h t ht
  | probe item pos => simpa [hpc, RingPc.isOut, RingPc.consumes] using h t ht
  | claim item pos => simpa [hpc, RingPc.isOut, RingPc.consumes] using h t ht
  | _ => rfl

/-- A thread whose enqueue is about to return is in `log`. -/
theorem Aligned.enqueues (h : s.Aligned) {p : Pointer} {accepted : Bool}
    (hpc : s.message_queue_.pcs t = .enqueued p accepted) : s.logging t = .enqueues := by
  by_contra hne
  simpa [hpc, RingPc.isOut, RingPc.consumes] using h t hne

/-- One thread goes on in `log`, and is not in the queue. -/
theorem Aligned.goto (h : s.Aligned) {pc : LogPc} (hpc : s.logging t ≠ .enqueues)
    (hqueue : s'.message_queue_ = s.message_queue_)
    (hlogging : s'.logging = Function.update s.logging t pc) : s'.Aligned := by
  intro u hu
  rw [hqueue]
  by_cases hut : u = t
  · exact hut ▸ h t hpc
  · rw [hlogging, Function.update_of_ne hut] at hu
    exact h u hu

theorem Aligned.step (h : s.Aligned) (hstep : s.Steps a s') : s'.Aligned := by
  have hother {u : LogThread} {q : TicketRing LogThread Pointer}
      (hpcs : q.pcs u = s.message_queue_.pcs u) (hu : s.logging u ≠ .enqueues) :
      (q.pcs u).isOut = true ∨ (q.pcs u).consumes = true := by
    rw [hpcs]
    exact h u hu
  cases hstep with
  | filtered may below => exact h
  | @log t message may passes =>
    refine h.goto (t := t) ?_ rfl rfl
    rw [mayLog, quiet, Bool.and_eq_true, Bool.and_eq_true] at may
    simp [of_decide_eq_true may.1.1]
  | @exhausted t message at_ => exact h.goto (t := t) (by simp [at_]) rfl rfl
  | @deallocate t p at_ => exact h.goto (t := t) (by simp [at_]) rfl rfl
  | @drop t at_ => exact h.goto (t := t) (by simp [at_]) rfl rfl
  | @count t c at_ => exact h.goto (t := t) (by simp [at_]) rfl rfl
  | @allocate t message b at_ unused => exact h.goto (t := t) (by simp [at_]) rfl rfl
  | @enqueue t p q at_ step =>
    intro u hu
    have hut : u ≠ t := by
      rintro rfl
      exact hu (Function.update_self ..)
    have hu' : s.logging u ≠ .enqueues := fun hsame => hu ((Function.update_of_ne hut ..).trans hsame)
    exact hother (TicketRing.pcs_other step hut) hu'
  | @queue t spurious q step =>
    intro u hu
    by_cases hut : u = t
    · subst hut
      rcases h u hu with hout | hconsumes
      · simp [TicketRing.step, TicketRing.stepThread, RingPc.eq_out hout] at step
      · exact .inr ((TicketRing.consumes_step step u).trans hconsumes)
    · exact hother (TicketRing.pcs_other step hut) hu
  | @enqueued t p accepted q at_ step =>
    intro u hu
    by_cases hut : u = t
    · subst hut
      exact .inl (congrArg RingPc.isOut (TicketRing.pcs_leave step))
    · have hu' : s.logging u ≠ .enqueues :=
        fun hsame => hu ((Function.update_of_ne hut ..).trans hsame)
      exact hother (TicketRing.pcs_other step hut) hu'
  | @dequeued t m item q at_ loop step =>
    intro u hu
    by_cases hut : u = t
    · subst hut
      exact .inl (congrArg RingPc.isOut (TicketRing.pcs_leave step))
    · exact hother (TicketRing.pcs_other step hut) hu
  | @poll m q at_ step =>
    intro u hu
    by_cases hut : u = s.worker
    · subst hut
      exact .inr (congrArg RingPc.consumes (TicketRing.pcs_dequeue step).2)
    · exact hother (TicketRing.pcs_other step hut) hu
  | _ => exact h

/-! ## The counts -/

/-- **Every call that passed the level** is counted as logged or as dropped, or has not returned. -/
def Counted (s : MessageLogger) (h : History) : Prop :=
  ∃ calls : Finset LogThread, (∀ t, t ∈ calls ↔ s.logging t ≠ .out) ∧
    h.passed = s.messages_logged + s.messages_dropped + calls.card

theorem record_passed (ha : ∀ t message, a ≠ .log t message) :
    (record s a s' h).passed = h.passed := by
  unfold record
  split <;> try rfl
  · exact absurd rfl (ha _ _)
  · split <;> rfl
  · split_ifs <;> rfl
  · split_ifs <;> rfl
  · split <;> rfl

/-- A call goes on, and does not return. -/
theorem Counted.goto (hc : s.Counted h) {pc : LogPc} {h' : History} (hat : s.logging t ≠ .out)
    (hpc : pc ≠ .out) (hlogging : s'.logging = Function.update s.logging t pc)
    (hlogged : s'.messages_logged = s.messages_logged)
    (hdropped : s'.messages_dropped = s.messages_dropped) (hpassed : h'.passed = h.passed) :
    s'.Counted h' := by
  obtain ⟨calls, hcalls, hsum⟩ := hc
  refine ⟨calls, fun u => ?_, by rw [hpassed, hlogged, hdropped, hsum]⟩
  rw [hcalls u, hlogging]
  by_cases hut : u = t
  · subst hut
    rw [Function.update_self]
    exact ⟨fun _ => hpc, fun _ => hat⟩
  · rw [Function.update_of_ne hut]

/-- A call is counted, and returns. -/
theorem Counted.returns (hc : s.Counted h) {h' : History} (hat : s.logging t ≠ .out)
    (hlogging : s'.logging = Function.update s.logging t .out)
    (hsum : s'.messages_logged + s'.messages_dropped =
      s.messages_logged + s.messages_dropped + 1) (hpassed : h'.passed = h.passed) :
    s'.Counted h' := by
  obtain ⟨calls, hcalls, hold⟩ := hc
  have hmem : t ∈ calls := (hcalls t).mpr hat
  refine ⟨calls.erase t, fun u => ?_, ?_⟩
  · rw [Finset.mem_erase, hcalls u, hlogging]
    by_cases hut : u = t
    · subst hut
      simp
    · rw [Function.update_of_ne hut]
      exact and_iff_right hut
  · have hcard := Finset.card_erase_add_one hmem
    rw [hpassed, hold, hsum]
    omega

theorem Counted.step (hc : s.Counted h) (hal : s.Aligned) (hstep : s.Steps a s') :
    s'.Counted (record s a s' h) := by
  have hsame (ha : ∀ t message, a ≠ .log t message) (hlogging : s'.logging = s.logging)
      (hlogged : s'.messages_logged = s.messages_logged)
      (hdropped : s'.messages_dropped = s.messages_dropped) : s'.Counted (record s a s' h) := by
    obtain ⟨calls, hcalls, hsum⟩ := hc
    exact ⟨calls, by rwa [hlogging], by rw [record_passed ha, hlogged, hdropped, hsum]⟩
  cases hstep with
  | filtered may below =>
    rw [record, if_pos below]
    exact hc
  | @log t message may passes =>
    obtain ⟨calls, hcalls, hsum⟩ := hc
    have hout : s.logging t = .out := by
      rw [mayLog, quiet, Bool.and_eq_true, Bool.and_eq_true] at may
      exact of_decide_eq_true may.1.1
    have hnew : t ∉ calls := fun hmem => (hcalls t).mp hmem hout
    refine ⟨insert t calls, fun u => ?_, ?_⟩
    · rw [Finset.mem_insert, hcalls u]
      change _ ↔ Function.update s.logging t _ u ≠ .out
      by_cases hut : u = t
      · subst hut
        simp
      · rw [Function.update_of_ne hut]
        exact or_iff_right hut
    · rw [record, if_neg passes, Finset.card_insert_of_notMem hnew]
      change h.passed + 1 = s.messages_logged + s.messages_dropped + (calls.card + 1)
      omega
  | @exhausted t message at_ =>
    exact hc.goto (t := t) (by simp [at_]) (by simp) rfl rfl rfl (record_passed (by simp))
  | @allocate t message b at_ unused =>
    exact hc.goto (t := t) (by simp [at_]) (by simp) rfl rfl rfl (record_passed (by simp))
  | @enqueue t p q at_ step =>
    exact hc.goto (t := t) (by simp [at_]) (by simp) rfl rfl rfl (record_passed (by simp))
  | @deallocate t p at_ =>
    exact hc.goto (t := t) (by simp [at_]) (by simp) rfl rfl rfl (record_passed (by simp))
  | @drop t at_ =>
    refine hc.returns (t := t) (by simp [at_]) rfl ?_ (record_passed (by simp))
    change s.messages_logged + (s.messages_dropped + 1) = _
    omega
  | @count t c at_ =>
    refine hc.returns (t := t) (by simp [at_]) rfl ?_ (record_passed (by simp))
    change s.messages_logged + 1 + s.messages_dropped = _
    omega
  | @enqueued t p accepted q at_ step =>
    refine hc.goto (t := t) (by simp [hal.enqueues at_]) ?_ rfl rfl rfl (record_passed (by simp))
    cases accepted <;> simp
  | _ => exact hsame (by simp) rfl rfl rfl

/-! ## What was accepted -/

/-- **What was accepted is in the log of the queue.** -/
structure Logged (s : MessageLogger) (h : History) : Prop where
  accepted : ∀ c ∈ h.accepted, ∃ p ∈ s.message_queue_.log, p.call = c
  counts : ∀ t c, s.logging t = .count c → ∃ p ∈ s.message_queue_.log, p.call = c
  accepts : ∀ t p, s.message_queue_.pcs t = .enqueued p true → p ∈ s.message_queue_.log

theorem record_accepted (ha : ∀ t, a ≠ .step t) :
    (record s a s' h).accepted = h.accepted := by
  unfold record
  split <;> try rfl
  · split_ifs <;> rfl
  · exact absurd rfl (ha _)
  · split_ifs <;> rfl
  · split_ifs <;> rfl
  · split <;> rfl

theorem record_step (ht : ∀ c, s.logging t ≠ .count c) : record s (.step t) s' h = h := by
  simp only [record]

/-- The thread `t` goes on in `log`, and nothing enters the log of the queue. -/
theorem Logged.goto (hl : s.Logged h) {pc : LogPc} {h' : History}
    (hlogging : s'.logging = Function.update s.logging t pc) (hpc : ∀ c, pc ≠ .count c)
    (haccepted : h'.accepted = h.accepted)
    (hlog : s'.message_queue_.log = s.message_queue_.log)
    (haccepts : ∀ u p, s'.message_queue_.pcs u = .enqueued p true →
      s.message_queue_.pcs u = .enqueued p true) : s'.Logged h' := by
  refine ⟨?_, fun u c hu => ?_, fun u p hu => ?_⟩
  · rw [haccepted, hlog]
    exact hl.accepted
  · rw [hlogging] at hu
    rw [hlog]
    by_cases hut : u = t
    · subst hut
      rw [Function.update_self] at hu
      exact absurd hu (hpc c)
    · rw [Function.update_of_ne hut] at hu
      exact hl.counts u c hu
  · rw [hlog]
    exact hl.accepts u p (haccepts u p hu)

/-- A thread that begins or ends an operation of the queue accepts nothing by that. -/
theorem accepts_of_call {e : RingLabel LogThread Pointer} {q : TicketRing LogThread Pointer}
    (hq : s.message_queue_.step e = some q) (he : ∀ p, q.pcs e.thread ≠ .enqueued p true)
    (u : LogThread) (p : Pointer) (hu : q.pcs u = .enqueued p true) :
    s.message_queue_.pcs u = .enqueued p true := by
  have hut : u ≠ e.thread := by
    rintro rfl
    exact he p hu
  exact (TicketRing.pcs_other hq hut).symm.trans hu

theorem Logged.step (hl : s.Logged h) (hs : s.message_queue_.Sound) (hstep : s.Steps a s') :
    s'.Logged (record s a s' h) := by
  have hkeep (ha : ∀ t, a ≠ .step t)
      (hlogging : s'.logging = s.logging) (hqueue : s'.message_queue_ = s.message_queue_) :
      s'.Logged (record s a s' h) := by
    refine ⟨?_, ?_, ?_⟩
    · rw [record_accepted ha, hqueue]
      exact hl.accepted
    · rw [hlogging, hqueue]
      exact hl.counts
    · rw [hqueue]
      exact hl.accepts
  cases hstep with
  | @log t message may passes =>
    exact hl.goto (t := t) rfl (by simp) (record_accepted (by simp)) rfl fun _ _ hu => hu
  | @exhausted t message at_ =>
    exact hl.goto (t := t) rfl (by simp) (record_accepted (by simp)) rfl fun _ _ hu => hu
  | @allocate t message b at_ unused =>
    exact hl.goto (t := t) rfl (by simp) (record_accepted (by simp)) rfl fun _ _ hu => hu
  | @deallocate t p at_ =>
    rw [record_step (by simp [at_])]
    exact hl.goto (t := t) rfl (by simp) rfl rfl fun _ _ hu => hu
  | @drop t at_ =>
    rw [record_step (by simp [at_])]
    exact hl.goto (t := t) rfl (by simp) rfl rfl fun _ _ hu => hu
  | @enqueue t p q at_ step =>
    rw [record_step (by simp [at_])]
    refine hl.goto (t := t) rfl (by simp) rfl
      (TicketRing.log_call (.inl ⟨_, _, rfl⟩) step) (accepts_of_call step fun x => ?_)
    rw [show q.pcs (RingLabel.enqueue t p).thread = _ from (TicketRing.pcs_enqueue step).2]
    simp
  | @count t c at_ =>
    have hc := hl.counts t c at_
    refine ⟨fun c' hc' => ?_, fun u c' hu => ?_, hl.accepts⟩
    · have hmem : c' ∈ h.accepted ++ [c] := by simpa only [record, at_] using hc'
      rcases List.mem_append.mp hmem with hold | hnew
      · exact hl.accepted c' hold
      · rw [List.mem_singleton.mp hnew]
        exact hc
    · by_cases hut : u = t
      · subst hut
        have hself : (s.goto u .out).logging u = .out := Function.update_self ..
        exact absurd (hself.symm.trans hu) (by simp)
      · exact hl.counts u c' ((Function.update_of_ne hut ..).symm.trans hu)
  | @queue t spurious q step =>
    have hprefix := TicketRing.log_step step
    refine ⟨fun c hc => ?_, fun u c hu => ?_, fun u p hu => ?_⟩
    · obtain ⟨p, hp, hpc⟩ := hl.accepted c hc
      exact ⟨p, hprefix.subset hp, hpc⟩
    · obtain ⟨p, hp, hpc⟩ := hl.counts u c hu
      exact ⟨p, hprefix.subset hp, hpc⟩
    · by_cases hut : u = t
      · subst hut
        obtain ⟨pos, hpos⟩ := TicketRing.publishes_of_enqueued step hu
        exact hprefix.subset (List.mem_of_getElem? (hs.publish hpos))
      · exact hprefix.subset (hl.accepts u p ((TicketRing.pcs_other step hut).symm.trans hu))
  | @enqueued t p accepted q at_ step =>
    have hlog : q.log = s.message_queue_.log := TicketRing.log_call (.inr (.inr ⟨_, rfl⟩)) step
    refine ⟨fun c hc => hlog ▸ hl.accepted c hc, fun u c hu => ?_, fun u x hu => ?_⟩
    · rw [show MessageLogger.message_queue_ _ = q from rfl, hlog]
      by_cases hut : u = t
      · subst hut
        have hself : Function.update s.logging u
            (if accepted then .count p.call else .deallocate p) u = .count c := hu
        rw [Function.update_self] at hself
        cases accepted with
        | true => exact ⟨p, hl.accepts u p at_, LogPc.count.inj hself⟩
        | false => cases hself
      · exact hl.counts u c ((Function.update_of_ne hut ..).symm.trans hu)
    · refine hlog ▸ hl.accepts u x (accepts_of_call step (fun y => ?_) u x hu)
      rw [show q.pcs (RingLabel.leave t).thread = _ from TicketRing.pcs_leave step]
      simp
  | @dequeued t m item q at_ loop step =>
    have hlog : q.log = s.message_queue_.log := TicketRing.log_call (.inr (.inr ⟨_, rfl⟩)) step
    refine ⟨fun c hc => hlog ▸ hl.accepted c hc, fun u c hu => hlog ▸ hl.counts u c hu,
      fun u x hu => hlog ▸ hl.accepts u x (accepts_of_call step (fun y => ?_) u x hu)⟩
    rw [show q.pcs (RingLabel.leave t).thread = _ from TicketRing.pcs_leave step]
    simp
  | @poll m q at_ step =>
    have hlog : q.log = s.message_queue_.log := TicketRing.log_call (.inr (.inl ⟨_, rfl⟩)) step
    refine ⟨fun c hc => ?_, fun u c hu => hlog ▸ hl.counts u c hu,
      fun u x hu => hlog ▸ hl.accepts u x (accepts_of_call step (fun y => ?_) u x hu)⟩
    · rw [record_accepted (by simp)] at hc
      exact hlog ▸ hl.accepted c hc
    · rw [show q.pcs (RingLabel.dequeue s.worker).thread = _ from (TicketRing.pcs_dequeue step).2]
      simp
  | filtered may below => exact hkeep (by simp) rfl rfl
  | _ => exact hkeep (by simp) rfl rfl

end MessageLogger

end AxonVex
