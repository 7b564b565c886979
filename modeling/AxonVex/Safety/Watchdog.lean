import AxonVex.Machinery.Machine
import Mathlib.Data.Int.Notation
import Mathlib.Data.List.Pairwise

/-!
# Safety/Watchdog — a timeout is reported one period after the last reference point

    loop:   now ← Clock::now();  lock;  now ≥ nextDeadline_ ? nextDeadline_ ← now + period_;  unlock
    tick:   lock;  nextDeadline_ ← Clock::now() + period_;  unlock

The deadline is moved by `start`, `tick`, `setPeriod` and by a reported timeout.  Each of them is a
**reference point**, and the deadline is always one period behind the last of them, with the period
then in force (`Aligned`).  So the loop reports a timeout exactly if its clock reading is a period
behind the last reference point, wherever a tick falls between that reading and the lock
(`reports_exactly`).

Readings of the clock and periods are exact numbers on one scale.
-/

namespace AxonVex

open Machinery

/-- Where the worker thread stands. -/
inductive Watchdog.Worker
  /-- there is no thread -/
  | absent
  /-- about to look at `running_` -/
  | loop
  /-- about to read the clock -/
  | clock
  /-- about to compare the reading with the deadline, under the lock -/
  | check (now : ℤ)
  /-- about to count the timeout -/
  | report
  /-- in `caller_.callCallbacks` -/
  | dispatch
  | sleep
  /-- the thread has ended, and was not joined -/
  | exited
  deriving DecidableEq, Repr

/-- `Watchdog`, and the clock. -/
structure Watchdog where
  period_ : ℤ
  running_ : Bool := false
  worker_ : Watchdog.Worker := .absent
  nextDeadline_ : ℤ := 0
  timeouts_ : ℕ := 0
  /-- what `Clock::now()` reads -/
  now : ℤ := 0

namespace Watchdog

/-- A step of a run. -/
inductive Label
  /-- time goes by -/
  | pass (d : ℕ)
  | start
  /-- `stop()` clears `running_` -/
  | stop
  /-- `stop()` joins the worker -/
  | join
  /-- `tick()`, from any thread or from a handler -/
  | tick
  | setPeriod (d : ℤ)
  /-- the next step of the worker; the handlers return or throw -/
  | work
  deriving DecidableEq, Repr

/-- The next step of the worker. -/
def stepWorker (s : Watchdog) : Option Watchdog :=
  match s.worker_ with
  | .absent => none
  | .loop => some { s with worker_ := if s.running_ then .clock else .exited }
  | .clock => some { s with worker_ := .check s.now }
  | .check now =>
    if now ≥ s.nextDeadline_ then
      some { s with worker_ := .report, nextDeadline_ := now + s.period_ }
    else some { s with worker_ := .sleep }
  | .report => some { s with worker_ := .dispatch, timeouts_ := s.timeouts_ + 1 }
  -- an exception of a handler is caught, and the loop goes on
  | .dispatch => some { s with worker_ := .sleep }
  | .sleep => some { s with worker_ := .loop }
  | .exited => none

/-- The step with this label. -/
def step (s : Watchdog) : Label → Option Watchdog
  | .pass d => some { s with now := s.now + d }
  | .start =>
    if s.running_ then some s
    -- a thread that was not joined: the assignment to `worker_` ends the program
    else if s.worker_ ≠ .absent then none
    else some { s with running_ := true, nextDeadline_ := s.now + s.period_, worker_ := .loop }
  | .stop => some { s with running_ := false }
  | .join => if s.worker_ = .exited then some { s with worker_ := .absent } else none
  | .tick => some { s with nextDeadline_ := s.now + s.period_ }
  | .setPeriod d => some { s with period_ := d, nextDeadline_ := s.now + d }
  | .work => s.stepWorker

/-! ## What happens in a run -/

/-- One comparison of the loop. -/
structure Check where
  /-- the reading of the clock -/
  reading : ℤ
  /-- the period in force -/
  period : ℤ
  /-- the last reference point -/
  reference : ℤ
  reported : Bool
  deriving DecidableEq, Repr

/-- The run so far. -/
structure History where
  /-- the last of: a start, a tick, a change of the period, the reading of a reported timeout -/
  reference : ℤ := 0
  /-- the comparisons, the latest first -/
  checks : List Check := []

/-- What a step adds to the run. -/
def record (s : Watchdog) (a : Label) (s' : Watchdog) (h : History) : History :=
  match a, s.worker_ with
  | .start, _ => if s.running_ then h else { h with reference := s.now }
  | .tick, _ => { h with reference := s.now }
  | .setPeriod _, _ => { h with reference := s.now }
  | .work, .check now =>
    { reference := if s'.worker_ = .report then now else h.reference
      checks := ⟨now, s.period_, h.reference, decide (s'.worker_ = .report)⟩ :: h.checks }
  | _, _ => h

/-- A watchdog with this period, from its construction on. -/
def watch (period : ℤ) : Machine (Watchdog × History) Label :=
  Machine.withHistory { init := fun s => s = { period_ := period }, step := step } {} record

/-! ## The invariant of a run -/

variable {s s' : Watchdog} {h h' : History} {a : Label}

/-- **The deadline is one period behind the last reference point**, and each comparison has told by
that. -/
structure Aligned (s : Watchdog) (h : History) : Prop where
  deadline : s.worker_ ≠ .absent → s.nextDeadline_ = h.reference + s.period_
  exact : ∀ c ∈ h.checks, c.reported = true ↔ c.reference + c.period ≤ c.reading
  /-- the comparisons were made with readings of before -/
  past : ∀ c ∈ h.checks, c.reading ≤ s.now
  /-- the reading that is about to be compared -/
  reading : ∀ now, s.worker_ = .check now → now ≤ s.now ∧ ∀ c ∈ h.checks, c.reading ≤ now
  /-- a reported timeout is a reference point -/
  reference : ∀ c ∈ h.checks, c.reported = true → c.reading ≤ h.reference
  apart : h.checks.Pairwise fun later earlier => later.reported = true → earlier.reported = true →
    earlier.reading + later.period ≤ later.reading
  counted : h.checks.countP Check.reported =
    s.timeouts_ + if s.worker_ = .report then 1 else 0

theorem aligned_construct (period : ℤ) : Aligned { period_ := period } {} where
  deadline h := absurd rfl h
  exact _ hc := absurd hc List.not_mem_nil
  past _ hc := absurd hc List.not_mem_nil
  reading _ h := nomatch h
  reference _ hc := absurd hc List.not_mem_nil
  apart := .nil
  counted := rfl

/-- A step of the worker that neither compares nor counts. -/
theorem Aligned.walk (hi : Aligned s h) {w : Worker} (hfrom : s.worker_ ≠ .absent)
    (hcount : s.worker_ ≠ .report) (hreport : w ≠ .report) (hcheck : ∀ now, w ≠ .check now) :
    Aligned { s with worker_ := w } h :=
  { hi with
    deadline := fun _ => hi.deadline hfrom
    reading := fun now hw => absurd hw (hcheck now)
    counted := by
      rw [hi.counted, if_neg hcount]
      exact congrArg _ (if_neg hreport).symm }

/-- The deadline and the reference point move to the present. -/
theorem Aligned.refer (hi : Aligned s h) (period : ℤ) :
    Aligned { s with period_ := period, nextDeadline_ := s.now + period }
      { h with reference := s.now } :=
  { hi with
    deadline := fun _ => rfl
    reference := fun c hc _ => hi.past c hc }

/-- The worker reads the clock. -/
theorem Aligned.clock (hi : Aligned s h) (hw : s.worker_ = .clock) :
    Aligned { s with worker_ := .check s.now } h :=
  { hi with
    deadline := fun _ => hi.deadline (by rw [hw]; exact Worker.noConfusion)
    reading := fun now hnow => by
      obtain rfl := Worker.check.inj hnow
      exact ⟨Int.le_refl _, hi.past⟩
    counted := by
      rw [hi.counted, hw]
      rfl }

/-- **A timeout is reported.** -/
theorem Aligned.fire (hi : Aligned s h) {now : ℤ} (hw : s.worker_ = .check now)
    (hdue : now ≥ s.nextDeadline_) :
    Aligned { s with worker_ := .report, nextDeadline_ := now + s.period_ }
      { reference := now, checks := ⟨now, s.period_, h.reference, true⟩ :: h.checks } := by
  have hdeadline := hi.deadline (by rw [hw]; exact Worker.noConfusion)
  have hlate : h.reference + s.period_ ≤ now := by omega
  obtain ⟨hnow, hpast⟩ := hi.reading now hw
  exact {
    deadline := fun _ => rfl
    exact := List.forall_mem_cons.mpr ⟨⟨fun _ => hlate, fun _ => rfl⟩, hi.exact⟩
    past := List.forall_mem_cons.mpr ⟨hnow, hi.past⟩
    reading := fun _ h => nomatch h
    reference := List.forall_mem_cons.mpr ⟨fun _ => Int.le_refl _, fun c hc _ => hpast c hc⟩
    apart := by
      refine List.pairwise_cons.mpr ⟨fun c hc _ hreported => ?_, hi.apart⟩
      have hle := hi.reference c hc hreported
      change c.reading + s.period_ ≤ now
      omega
    counted := by
      rw [List.countP_cons_of_pos rfl, hi.counted, hw]
      rfl }

/-- **No timeout is reported.** -/
theorem Aligned.spare (hi : Aligned s h) {now : ℤ} (hw : s.worker_ = .check now)
    (hdue : ¬ now ≥ s.nextDeadline_) :
    Aligned { s with worker_ := .sleep }
      { h with checks := ⟨now, s.period_, h.reference, false⟩ :: h.checks } := by
  have hdeadline := hi.deadline (by rw [hw]; exact Worker.noConfusion)
  have hearly : ¬ h.reference + s.period_ ≤ now := by omega
  obtain ⟨hnow, -⟩ := hi.reading now hw
  exact {
    deadline := fun _ => hdeadline
    exact := List.forall_mem_cons.mpr
      ⟨⟨fun h => absurd h Bool.false_ne_true, fun h => absurd h hearly⟩, hi.exact⟩
    past := List.forall_mem_cons.mpr ⟨hnow, hi.past⟩
    reading := fun _ h => nomatch h
    reference := List.forall_mem_cons.mpr ⟨fun h => absurd h Bool.false_ne_true, hi.reference⟩
    apart := List.pairwise_cons.mpr
      ⟨fun _ _ h => absurd h Bool.false_ne_true, hi.apart⟩
    counted := by
      rw [List.countP_cons_of_neg Bool.false_ne_true, hi.counted, hw]
      rfl }

/-- The timeout is counted. -/
theorem Aligned.count (hi : Aligned s h) (hw : s.worker_ = .report) :
    Aligned { s with worker_ := .dispatch, timeouts_ := s.timeouts_ + 1 } h :=
  { hi with
    deadline := fun _ => hi.deadline (by rw [hw]; exact Worker.noConfusion)
    reading := fun _ h => nomatch h
    counted := by
      rw [hi.counted, if_pos hw]
      rfl }

/-- **The worker keeps the invariant.** -/
theorem Aligned.work (hi : Aligned s h) (hstep : s.stepWorker = some s') :
    Aligned s' (record s .work s' h) := by
  cases hw : s.worker_ with
  | absent => simp [stepWorker, hw] at hstep
  | exited => simp [stepWorker, hw] at hstep
  | loop =>
    obtain rfl : { s with worker_ := if s.running_ then .clock else .exited } = s' := by
      simpa [stepWorker, hw] using hstep
    have hkept := hi.walk (w := if s.running_ then .clock else .exited)
      (by rw [hw]; exact Worker.noConfusion) (by rw [hw]; exact Worker.noConfusion)
      (by split <;> exact Worker.noConfusion) (fun _ => by split <;> exact Worker.noConfusion)
    simpa [record, hw] using hkept
  | clock =>
    obtain rfl : { s with worker_ := .check s.now } = s' := by
      simpa [stepWorker, hw] using hstep
    simpa [record, hw] using hi.clock hw
  | check now =>
    by_cases hdue : now ≥ s.nextDeadline_
    · obtain rfl : { s with worker_ := .report, nextDeadline_ := now + s.period_ } = s' := by
        simpa [stepWorker, hw, hdue] using hstep
      simpa [record, hw] using hi.fire hw hdue
    · obtain rfl : { s with worker_ := .sleep } = s' := by
        simpa [stepWorker, hw, hdue] using hstep
      simpa [record, hw] using hi.spare hw hdue
  | report =>
    obtain rfl : { s with worker_ := .dispatch, timeouts_ := s.timeouts_ + 1 } = s' := by
      simpa [stepWorker, hw] using hstep
    simpa [record, hw] using hi.count hw
  | dispatch =>
    obtain rfl : { s with worker_ := .sleep } = s' := by
      simpa [stepWorker, hw] using hstep
    have hkept := hi.walk (w := .sleep) (by rw [hw]; exact Worker.noConfusion)
      (by rw [hw]; exact Worker.noConfusion) Worker.noConfusion (fun _ => Worker.noConfusion)
    simpa [record, hw] using hkept
  | sleep =>
    obtain rfl : { s with worker_ := .loop } = s' := by
      simpa [stepWorker, hw] using hstep
    have hkept := hi.walk (w := .loop) (by rw [hw]; exact Worker.noConfusion)
      (by rw [hw]; exact Worker.noConfusion) Worker.noConfusion (fun _ => Worker.noConfusion)
    simpa [record, hw] using hkept

/-- The watchdog is started. -/
theorem Aligned.start (hi : Aligned s h) (hw : s.worker_ = .absent) :
    Aligned { s with running_ := true, nextDeadline_ := s.now + s.period_, worker_ := .loop }
      { h with reference := s.now } :=
  { hi with
    deadline := fun _ => rfl
    reading := fun _ h => nomatch h
    reference := fun c hc _ => hi.past c hc
    counted := by
      rw [hi.counted, hw]
      rfl }

/-- Time goes by. -/
theorem Aligned.pass (hi : Aligned s h) (d : ℕ) : Aligned { s with now := s.now + d } h :=
  { hi with
    past := fun c hc =>
      Int.le_trans (hi.past c hc) (Int.le_add_of_nonneg_right (Int.natCast_nonneg d))
    reading := fun now hw =>
      ⟨Int.le_trans (hi.reading now hw).1 (Int.le_add_of_nonneg_right (Int.natCast_nonneg d)),
        (hi.reading now hw).2⟩ }

/-- **One step keeps the invariant.** -/
theorem Aligned.step (hi : Aligned s h) (hstep : s.step a = some s') :
    Aligned s' (record s a s' h) := by
  cases a with
  | pass d =>
    obtain ⟨⟩ := hstep
    exact hi.pass d
  | start =>
    change (if s.running_ then _ else _) = _ at hstep
    split at hstep
    next hrun =>
      obtain ⟨⟩ := hstep
      change Aligned s (if s.running_ then h else _)
      rw [if_pos hrun]
      exact hi
    next hrun =>
      split at hstep
      next => cases hstep
      next hw =>
        obtain ⟨⟩ := hstep
        change Aligned _ (if s.running_ then h else _)
        rw [if_neg hrun]
        exact hi.start (not_not.mp hw)
  | stop =>
    obtain ⟨⟩ := hstep
    exact ⟨hi.deadline, hi.exact, hi.past, hi.reading, hi.reference, hi.apart, hi.counted⟩
  | join =>
    change (if s.worker_ = .exited then _ else _) = _ at hstep
    split at hstep
    next hw =>
      obtain ⟨⟩ := hstep
      exact hi.walk (by rw [hw]; exact Worker.noConfusion) (by rw [hw]; exact Worker.noConfusion)
        Worker.noConfusion fun _ => Worker.noConfusion
    next => cases hstep
  | tick =>
    obtain ⟨⟩ := hstep
    exact hi.refer s.period_
  | setPeriod d =>
    obtain ⟨⟩ := hstep
    exact hi.refer d
  | work => exact hi.work hstep

theorem aligned_inductive (period : ℤ) (G : Watchdog × History → Label → Prop) :
    (watch period).Inductive G fun p => Aligned p.1 p.2 where
  init := by
    rintro ⟨s, h⟩ ⟨rfl : s = _, rfl : h = _⟩
    exact aligned_construct period
  step := by
    rintro ⟨s, h⟩ a ⟨s', h'⟩ hi - hstep
    obtain ⟨hs, hrecord⟩ := Machine.withHistory_step.mp hstep
    exact hrecord ▸ hi.step hs

/-! ## A watchdog that is fed -/

/-- While the watchdog runs, time does not reach one period past the last reference point, and the
periods are positive. -/
def Fed (p : Watchdog × History) : Label → Prop
  | .pass d => p.1.worker_ ≠ .absent → p.1.now + d < p.2.reference + p.1.period_
  | .start => 0 < p.1.period_
  | .setPeriod d => 0 < d
  | _ => True

/-- **Nothing was reported**, and the next deadline lies ahead. -/
structure Quiet (s : Watchdog) (h : History) : Prop where
  silent : ∀ c ∈ h.checks, c.reported = false
  ahead : s.worker_ ≠ .absent → s.now < h.reference + s.period_
  positive : s.worker_ ≠ .absent → 0 < s.period_

/-- A step that leaves the clock, the deadline and the run as they are. -/
theorem Quiet.walk (hq : Quiet s h) (w : Worker) (hfrom : s.worker_ ≠ .absent) :
    Quiet { s with worker_ := w } h :=
  ⟨hq.silent, fun _ => hq.ahead hfrom, fun _ => hq.positive hfrom⟩

/-- The worker of a fed watchdog reports nothing. -/
theorem Quiet.work (hi : Aligned s h) (hq : Quiet s h) (hstep : s.stepWorker = some s') :
    Quiet s' (record s .work s' h) := by
  cases hw : s.worker_ with
  | absent => simp [stepWorker, hw] at hstep
  | exited => simp [stepWorker, hw] at hstep
  | check now =>
    have hfrom : s.worker_ ≠ .absent := by rw [hw]; exact Worker.noConfusion
    -- the reading is not later than the present, and so before the deadline
    have hdue : ¬ now ≥ s.nextDeadline_ := by
      have hdeadline := hi.deadline hfrom
      have hnow := (hi.reading now hw).1
      have hahead := hq.ahead hfrom
      omega
    obtain rfl : { s with worker_ := .sleep } = s' := by
      simpa [stepWorker, hw, hdue] using hstep
    have hsilent : Quiet { s with worker_ := .sleep }
        { h with checks := ⟨now, s.period_, h.reference, false⟩ :: h.checks } :=
      ⟨List.forall_mem_cons.mpr ⟨rfl, hq.silent⟩, fun _ => hq.ahead hfrom,
        fun _ => hq.positive hfrom⟩
    simpa [record, hw] using hsilent
  | report =>
    have hfrom : s.worker_ ≠ .absent := by rw [hw]; exact Worker.noConfusion
    obtain rfl : { s with worker_ := .dispatch, timeouts_ := s.timeouts_ + 1 } = s' := by
      simpa [stepWorker, hw] using hstep
    have hkept : Quiet { s with worker_ := .dispatch, timeouts_ := s.timeouts_ + 1 } h :=
      ⟨hq.silent, fun _ => hq.ahead hfrom, fun _ => hq.positive hfrom⟩
    simpa [record, hw] using hkept
  | loop =>
    obtain rfl : { s with worker_ := if s.running_ then .clock else .exited } = s' := by
      simpa [stepWorker, hw] using hstep
    simpa [record, hw] using hq.walk _ (by rw [hw]; exact Worker.noConfusion)
  | clock =>
    obtain rfl : { s with worker_ := .check s.now } = s' := by
      simpa [stepWorker, hw] using hstep
    simpa [record, hw] using hq.walk _ (by rw [hw]; exact Worker.noConfusion)
  | dispatch =>
    obtain rfl : { s with worker_ := .sleep } = s' := by
      simpa [stepWorker, hw] using hstep
    simpa [record, hw] using hq.walk _ (by rw [hw]; exact Worker.noConfusion)
  | sleep =>
    obtain rfl : { s with worker_ := .loop } = s' := by
      simpa [stepWorker, hw] using hstep
    simpa [record, hw] using hq.walk _ (by rw [hw]; exact Worker.noConfusion)

/-- **A step of a fed watchdog reports nothing.** -/
theorem Quiet.step (hi : Aligned s h) (hq : Quiet s h) (hfed : Fed (s, h) a)
    (hstep : s.step a = some s') : Quiet s' (record s a s' h) := by
  cases a with
  | pass d =>
    obtain ⟨⟩ := hstep
    exact ⟨hq.silent, hfed, hq.positive⟩
  | start =>
    change (if s.running_ then _ else _) = _ at hstep
    split at hstep
    next hrun =>
      obtain ⟨⟩ := hstep
      change Quiet s (if s.running_ then h else _)
      rw [if_pos hrun]
      exact hq
    next hrun =>
      split at hstep
      next => cases hstep
      next =>
        obtain ⟨⟩ := hstep
        change Quiet _ (if s.running_ then h else _)
        rw [if_neg hrun]
        exact ⟨hq.silent, fun _ => Int.lt_add_of_pos_right _ hfed, fun _ => hfed⟩
  | stop =>
    obtain ⟨⟩ := hstep
    exact ⟨hq.silent, hq.ahead, hq.positive⟩
  | join =>
    change (if s.worker_ = .exited then _ else _) = _ at hstep
    split at hstep
    next hw =>
      obtain ⟨⟩ := hstep
      exact hq.walk _ (by rw [hw]; exact Worker.noConfusion)
    next => cases hstep
  | tick =>
    obtain ⟨⟩ := hstep
    exact ⟨hq.silent, fun hw => Int.lt_add_of_pos_right _ (hq.positive hw), hq.positive⟩
  | setPeriod d =>
    obtain ⟨⟩ := hstep
    exact ⟨hq.silent, fun _ => Int.lt_add_of_pos_right _ hfed, fun _ => hfed⟩
  | work => exact hq.work hi hstep

theorem quiet_inductive (period : ℤ) :
    (watch period).Inductive Fed fun p => Aligned p.1 p.2 ∧ Quiet p.1 p.2 := by
  refine (aligned_inductive period Fed).and ?_ ?_
  · rintro ⟨s, h⟩ ⟨rfl : s = _, rfl : h = _⟩
    exact ⟨fun _ hc => absurd hc List.not_mem_nil, fun hw => absurd rfl hw, fun hw => absurd rfl hw⟩
  · rintro ⟨s, h⟩ a ⟨s', h'⟩ hi hq hfed hstep
    obtain ⟨hs, hrecord⟩ := Machine.withHistory_step.mp hstep
    exact hrecord ▸ hq.step hi hfed hs

/-- **A timeout is reported exactly one period behind the last reference point.**  In every run each
comparison tells so, two reported timeouts are at least the period in force apart, and the handlers
are called once for each of them; a watchdog that is fed in time reports none. -/
theorem reports_exactly (period : ℤ) :
    (∀ p, (watch period).Reachable p →
      (∀ c ∈ p.2.checks, c.reported = true ↔ c.period ≤ c.reading - c.reference) ∧
      (p.2.checks.Pairwise fun later earlier => later.reported = true → earlier.reported = true →
        later.period ≤ later.reading - earlier.reading) ∧
      p.2.checks.countP Check.reported =
        p.1.timeouts_ + if p.1.worker_ = .report then 1 else 0) ∧
    ∀ p, (watch period).ReachableUnder Fed p → ∀ c ∈ p.2.checks, c.reported = false := by
  constructor
  · intro p hp
    have hi := hp.invariant (aligned_inductive period _)
    refine ⟨fun c hc => (hi.exact c hc).trans ?_, hi.apart.imp fun hapart hlater hearlier => ?_,
      hi.counted⟩
    · constructor <;> intro h <;> omega
    · have := hapart hlater hearlier
      omega
  · intro p hp
    exact (hp.invariant (quiet_inductive period)).2.silent

/-- Started at 0 with period 50 and ticked at 40: the comparison at 60 reports nothing, that at 90
does, and the next one is due at 140. -/
def tickedOnce : List Label :=
  [.start, .pass 40, .tick, .pass 20] ++ List.replicate 3 .work ++ [.work, .pass 30] ++
    List.replicate 3 .work

example : ((watch 50).exec ({ period_ := 50 }, {}) tickedOnce).map
    (fun p => (p.2.checks.map Check.reported, p.1.nextDeadline_)) = some ([true, false], 140) := by
  decide

end Watchdog

end AxonVex
