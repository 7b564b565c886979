import AxonVex.Safety.Lifecycle
import AxonVex.Machinery.WorkerSteps

/-!
# Safety/EmergencyStop — the latch of the emergency stop

`emergencyStopped_` is one atomic flag that four operations write without a common lock.  A run
carries along what has become of the last emergency stop: `resetEmergencyStop()` clears it, and so
does a `start()` that finds the manager not running.  Whatever else the threads do, an emergency
stop that neither of these has cleared is engaged (`emergency_stop_latched`).
-/

namespace AxonVex

open Machinery

namespace SafetyManager

/-- What the run says of the emergency stop. -/
structure History where
  /-- one was triggered, and since then nothing has cleared it -/
  engaged : Bool := false
  /-- one was triggered, and since then no `resetEmergencyStop()` has cleared it -/
  tripped : Bool := false
  /-- the threads in a `resetEmergencyStop()` -/
  resets : WorkerId → Bool := fun _ => false
  /-- the threads in a `start()` that has found the manager not running -/
  begins : WorkerId → Bool := fun _ => false

/-- A thread begins a call. -/
def History.called (h : History) (t : WorkerId) (c : Call) : History :=
  { h with
    resets := Function.update h.resets t (c == .resetEmergencyStop)
    begins := Function.update h.begins t false }

/-- A thread executes a statement, with `running_` as it was before. -/
def History.executed (h : History) (t : WorkerId) (running : Bool) : Stmt Flag → History
  | .returnIfExchanged .emergencyStopped => { h with engaged := true, tripped := true }
  | .returnIfExchanged .running => { h with begins := Function.update h.begins t !running }
  | .store .emergencyStopped false =>
    { h with
      engaged := h.engaged && !(h.resets t || h.begins t)
      tripped := h.tripped && !h.resets t }
  | _ => h

/-- How a step changes the history. -/
def record (p : Workers Flag) : WorkerLabel Call → Workers Flag → History → History
  | .call t c, _, h => h.called t c
  | .step t, _, h => match (p.threads t).rest? with
    | some (stmt :: _) => h.executed t (p.flags .running) stmt
    | _ => h
  | _, _, h => h

/-! ## The invariant -/

/-- The rest of a call clears the latch without another look at `running_`. -/
def clears : List (Stmt Flag) → Bool
  | [] => false
  | .returnIfExchanged .running :: _ => false
  | .store .emergencyStopped false :: _ => true
  | _ :: rest => clears rest

theorem clears_unwind {rest : List (Stmt Flag)} : clears (Stmt.unwind rest) = false := by
  unfold Stmt.unwind
  split_ifs <;> rfl

theorem store_mem_of_clears {rest : List (Stmt Flag)} (h : clears rest = true) :
    .store .emergencyStopped false ∈ rest := by
  induction rest with
  | nil => exact absurd h (by simp [clears])
  | cons stmt rest ih =>
    unfold clears at h
    split at h
    next he => cases he
    next => cases h
    next he => exact (List.cons.inj he).1 ▸ List.mem_cons_self
    next he =>
      obtain ⟨rfl, rfl⟩ := List.cons.inj he
      exact List.mem_cons_of_mem _ (ih h)

/-- Only the exchange of `running_` gives leave to clear. -/
theorem clears_cons {stmt : Stmt Flag} {rest : List (Stmt Flag)}
    (hstmt : stmt ≠ .returnIfExchanged .running) (h : clears rest = true) :
    clears (stmt :: rest) = true := by
  unfold clears
  split
  next he => cases he
  next he => exact absurd (List.cons.inj he).1 hstmt
  next => rfl
  next he =>
    obtain ⟨rfl, rfl⟩ := List.cons.inj he
    exact h

/-- Who is about to clear the latch may: it is in a reset, or in a `start()` that begins. -/
structure Accounted (h : History) (t : WorkerId) (rest : List (Stmt Flag)) : Prop where
  plain : .store .emergencyStopped false ∈ rest → ∀ n, .ifJoinable n ∉ rest
  clearing : clears rest = true → (h.resets t || h.begins t) = true

/-- **The invariant of the latch.** -/
structure Latched (s : Workers Flag × History) : Prop where
  latch : s.2.engaged = true → s.1.flags .emergencyStopped = true
  leaves : manager.LeavesWithExit s.1
  calls : ∀ t rest, (s.1.threads t).rest? = some rest → Accounted s.2 t rest

theorem accounted_code {h : History} {t : WorkerId} (c : Call) :
    Accounted (h.called t c) t (manager.code c) := by
  cases c with
  | start => exact ⟨by simp [manager, start], fun hc => absurd hc (by decide)⟩
  | stop => exact ⟨by simp [manager, stop], fun hc => absurd hc (by decide)⟩
  | triggerEmergencyStop =>
    exact ⟨by simp [manager, triggerEmergencyStop], fun hc => absurd hc (by decide)⟩
  | resetEmergencyStop =>
    exact ⟨by simp [manager, resetEmergencyStop], fun _ => by simp [History.called]⟩

theorem accounted_nil {h : History} {t : WorkerId} : Accounted h t [] :=
  ⟨by simp, fun hc => absurd hc (by simp [clears])⟩

theorem accounted_unwind {h : History} {t : WorkerId} {rest : List (Stmt Flag)} :
    Accounted h t (Stmt.unwind rest) := by
  refine ⟨fun hmem => ?_, fun hc => absurd hc (by simp [clears_unwind])⟩
  unfold Stmt.unwind at hmem
  split_ifs at hmem <;> simp at hmem

@[simp] theorem resets_executed {h : History} {t : WorkerId} {running : Bool} {stmt : Stmt Flag} :
    (h.executed t running stmt).resets = h.resets := by
  unfold History.executed
  split <;> rfl

theorem begins_executed_of_ne {h : History} {t u : WorkerId} {running : Bool} {stmt : Stmt Flag}
    (hut : u ≠ t) : (h.executed t running stmt).begins u = h.begins u := by
  unfold History.executed
  split
  · rfl
  · exact Function.update_of_ne hut ..
  · rfl
  · rfl

theorem begins_executed {h : History} {t : WorkerId} {running : Bool} {stmt : Stmt Flag}
    (hstmt : stmt ≠ .returnIfExchanged .running) :
    (h.executed t running stmt).begins = h.begins := by
  unfold History.executed
  split
  · rfl
  · exact absurd rfl hstmt
  · rfl
  · rfl

/-- What a thread does is no call, and no exchange, of another. -/
theorem Accounted.other {h : History} {u : WorkerId} {rest : List (Stmt Flag)} {p q : Workers Flag}
    {a : WorkerLabel Call} (hu : Accounted h u rest) (hactor : u ≠ a.actor) :
    Accounted (record p a q h) u rest := by
  refine ⟨hu.plain, fun hc => ?_⟩
  have hold := hu.clearing hc
  cases a with
  | call t c =>
    have hut : u ≠ t := hactor
    change (Function.update h.resets t _ u || Function.update h.begins t _ u) = true
    rwa [Function.update_of_ne hut, Function.update_of_ne hut]
  | step t =>
    have hut : u ≠ t := hactor
    simp only [record]
    split
    · rwa [resets_executed, begins_executed_of_ne hut]
    · exact hold
  | _ => exact hold

theorem Accounted.tail {h : History} {t : WorkerId} {stmt : Stmt Flag} {rest : List (Stmt Flag)}
    (ht : Accounted h t (stmt :: rest)) (hstmt : stmt ≠ .returnIfExchanged .running) :
    Accounted h t rest :=
  ⟨fun hmem n hn => ht.plain (List.mem_cons_of_mem _ hmem) n (List.mem_cons_of_mem _ hn),
    fun hc => ht.clearing (clears_cons hstmt hc)⟩

/-- **A statement of a call** keeps the account of the thread. -/
theorem Accounted.ran {h : History} {t : WorkerId} {p : Workers Flag} {stmt : Stmt Flag}
    {rest : List (Stmt Flag)} {r : Workers Flag × List (Stmt Flag)}
    (ht : Accounted h t (stmt :: rest)) (hexec : p.exec t stmt rest = some r) :
    Accounted (h.executed t (p.flags .running) stmt) t r.2 := by
  have htail : .store .emergencyStopped false ∈ rest → ∀ n, .ifJoinable n ∉ rest :=
    fun hmem n hn => ht.plain (List.mem_cons_of_mem _ hmem) n (List.mem_cons_of_mem _ hn)
  by_cases hstmt : stmt = .returnIfExchanged .running
  · subst hstmt
    simp only [Workers.exec] at hexec
    split_ifs at hexec with hset
    · exact Option.some.inj hexec ▸ accounted_unwind
    · obtain ⟨⟩ := hexec
      refine ⟨htail, fun _ => ?_⟩
      have hbegins : (h.executed t (p.flags .running) (.returnIfExchanged .running)).begins t =
          !p.flags .running := Function.update_self ..
      rw [hbegins, Bool.eq_false_iff.mpr hset, Bool.not_false, Bool.or_true]
  · have hkeep : ∀ rest', (clears rest' = true → clears (stmt :: rest) = true) →
        clears rest' = true → ((h.executed t (p.flags .running) stmt).resets t ||
          (h.executed t (p.flags .running) stmt).begins t) = true := by
      intro rest' hclears hc
      rw [resets_executed, begins_executed hstmt]
      exact ht.clearing (hclears hc)
    have hnext := Workers.next_exec hexec
    generalize r.2 = rest' at hnext
    cases hnext with
    | goOn => exact ⟨htail, hkeep rest (clears_cons hstmt)⟩
    | back => exact accounted_unwind
    | skip =>
      -- a call that may skip statements does not clear the latch
      have hmem : .store .emergencyStopped false ∉ rest := fun hmem =>
        ht.plain (List.mem_cons_of_mem _ hmem) _ List.mem_cons_self
      refine ⟨fun hs => absurd (List.mem_of_mem_drop hs) hmem, fun hc => ?_⟩
      exact absurd (List.mem_of_mem_drop (store_mem_of_clears hc)) hmem
    | further =>
      refine ⟨fun hs n hn => ?_, hkeep _ fun hc => hc⟩
      simp only [List.mem_cons, reduceCtorEq, false_or] at hs hn
      exact htail hs n hn

/-! ## Runs -/

/-- Only the exchange of the latch engages an emergency stop. -/
theorem engaged_of_executed {h : History} {t : WorkerId} {running : Bool} {stmt : Stmt Flag}
    (hstmt : stmt ≠ .returnIfExchanged .emergencyStopped)
    (hengaged : (h.executed t running stmt).engaged = true) : h.engaged = true := by
  unfold History.executed at hengaged
  split at hengaged
  · exact absurd rfl hstmt
  · exact hengaged
  · exact (Bool.and_eq_true ..|>.mp hengaged).1
  · exact hengaged

/-- **Every step keeps the latch** of an engaged emergency stop. -/
theorem Latched.step {s s' : Workers Flag × History} {a : WorkerLabel Call} (h : Latched s)
    (hstep : manager.step s.1 a = some s'.1) (hrecord : record s.1 a s'.1 s.2 = s'.2) :
    Latched s' where
  latch := by
    intro hengaged
    rw [← hrecord] at hengaged
    rcases WorkerClass.flags_step hstep .emergencyStopped with hsame | hwrites
    · rw [hsame]
      cases a with
      | step t =>
        simp only [record] at hengaged
        split at hengaged
        next stmt rest ht =>
          by_cases hstmt : stmt = .returnIfExchanged .emergencyStopped
          · subst hstmt
            rw [← hsame]
            exact WorkerClass.flags_exchanged hstep ht
          · exact h.latch (engaged_of_executed hstmt hengaged)
        next => exact h.latch hengaged
      | _ => exact h.latch hengaged
    · generalize s'.1.flags .emergencyStopped = value at hwrites
      cases hwrites with
      | @stored t value rest ht =>
        cases value with
        | true => rfl
        | false =>
          -- whoever clears the latch clears the history as well
          have hclearing := (h.calls t _ ht).clearing rfl
          simp [record, ht, History.executed, hclearing] at hengaged
      | exchanged => rfl
      | left hpc =>
        have hexit := h.leaves _ _ hpc
        exact absurd (List.suffix_nil.mp hexit) (by simp)
      | broke hfault => exact absurd hfault (by simp [manager])
  leaves := h.leaves.step hstep
  calls := by
    intro u rest hr
    rw [← hrecord]
    cases WorkerClass.rest_step hstep hr with
    | kept hold hactor => exact (h.calls u _ hold).other hactor.symm
    | empty => exact accounted_nil
    | called ha => exact ha ▸ accounted_code _
    | @ran stmt _ _ hold ha hexec =>
      subst ha
      have hexecuted : record s.1 (.step u) s'.1 s.2 = s.2.executed u (s.1.flags .running) stmt := by
        simp only [record, hold]
      rw [hexecuted]
      exact (h.calls u _ hold).ran hexec
    | opened hold ha => exact accounted_unwind
    | spawned hold ha =>
      subst ha
      exact (h.calls u _ hold).tail (by simp)

theorem reachable_init :
    (manager.machine.withHistory ({} : History) record).Reachable ({}, {}) := .init ⟨rfl, rfl⟩

theorem inductive_latched :
    (manager.machine.withHistory {} record).Inductive (fun _ _ => True) Latched where
  init s hs := by
    obtain ⟨hp, hh⟩ := hs
    obtain ⟨p, h⟩ := s
    obtain rfl : p = {} := hp
    obtain rfl : h = {} := hh
    exact ⟨fun he => absurd he (by simp), fun t flags hl => absurd hl (by simp),
      fun t rest hr => absurd hr (by simp [WorkerPc.rest?])⟩
  step s a s' h _ hstep := by
    obtain ⟨hstep, hrecord⟩ := Machine.withHistory_step.mp hstep
    exact h.step hstep hrecord

/-- **An engaged emergency stop stays engaged** in every run, until a `resetEmergencyStop()` clears
it, or a `start()` that finds the manager not running. -/
theorem emergency_stop_latched {s : Workers Flag × History}
    (h : (manager.machine.withHistory {} record).Reachable s) (hengaged : s.2.engaged = true) :
    s.1.flags .emergencyStopped = true :=
  (h.invariant inductive_latched).latch hengaged

set_option maxRecDepth 4000 in
/-- A trip of the running manager. -/
theorem emergency_stop_latched_running :
    ∃ s, (manager.machine.withHistory {} record).exec ({}, {}) [.arrive 0, .call 0 .start, .step 0,
        .step 0, .step 0, .spawn 0 1, .step 0, .call 0 .triggerEmergencyStop, .step 0,
        .call 0 .stop, .step 0] = some s ∧ s.2.engaged = true ∧
      s.1.flags .emergencyStopped = true := by
  have hrun : ((manager.machine.withHistory {} record).exec ({}, {}) [.arrive 0, .call 0 .start,
      .step 0, .step 0, .step 0, .spawn 0 1, .step 0, .call 0 .triggerEmergencyStop, .step 0,
      .call 0 .stop, .step 0]).any (fun s => s.2.engaged) = true := by decide
  obtain ⟨s, hs, hengaged⟩ := (Option.any_eq_true _ _).mp hrun
  exact ⟨s, hs, hengaged, emergency_stop_latched (.exec reachable_init hs) hengaged⟩

set_option maxRecDepth 4000 in
/-- A `start()` clears an emergency stop that was triggered while the manager was not running. -/
theorem start_clears_latch :
    ¬ ∀ s, (manager.machine.withHistory {} record).Reachable s → s.2.tripped = true →
      s.1.flags .emergencyStopped = true := by
  intro h
  have hrun : ((manager.machine.withHistory {} record).exec ({}, {}) [.arrive 0,
      .call 0 .triggerEmergencyStop, .step 0, .call 0 .start, .step 0, .step 0, .step 0]).any
      (fun s => s.2.tripped && !s.1.flags .emergencyStopped) = true := by decide
  obtain ⟨s, hs, hbad⟩ := (Option.any_eq_true _ _).mp hrun
  rw [Bool.and_eq_true, Bool.not_eq_true'] at hbad
  have hlatched := h s (.exec reachable_init hs) hbad.1
  rw [hbad.2] at hlatched
  exact absurd hlatched (by simp)

end SafetyManager

end AxonVex
