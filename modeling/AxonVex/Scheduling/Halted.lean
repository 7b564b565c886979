import AxonVex.Scheduling.Cycle

/-!
# Scheduling/Halted — what still begins after a halt

    running_ ──test──▸ select ──▸ claim ──▸ executeTask
                 ▲ halt()   ▲        ▲

`halt()`, all there is to `emergencyStop()` but for its callback, clears `running_` and waits for
nothing.  The loop tests the flag before it selects a task, and between the test and the claim the
halt comes too late: that one task is still executed.  Every later turn finds the flag clear, whatever
is left of the cycle, so after a halt at most one execution begins (`begun_after_halt_le_one`).
-/

namespace AxonVex

open Machinery

namespace LoopPc

/-- A task is selected, and not yet claimed. -/
def isPicked : LoopPc → Bool
  | picked _ _ => true
  | _ => false

/-- A task is claimed, and its unit's code may not have been entered. -/
def isEntering : LoopPc → Bool
  | processAsync _ _ => true
  | _ => false

end LoopPc

namespace RealTimeScheduler

variable {s t : RealTimeScheduler}

/-- The executions that may begin without another test of `running_`. -/
def due (s : RealTimeScheduler) : ℕ := if s.worker.pc?.any LoopPc.isPicked then 1 else 0

/-- The executions that are about to begin. -/
def entering (s : RealTimeScheduler) : ℕ := if s.worker.pc?.any LoopPc.isEntering then 1 else 0

/-- The executions that a step begins: the claim of a task. -/
def begun (s t : RealTimeScheduler) : ℕ := if s.claimed? = none ∧ t.claimed? ≠ none then 1 else 0

theorem entering_add_due_le (s : RealTimeScheduler) : s.entering + s.due ≤ 1 := by
  rw [entering, due]
  cases s.worker.pc? with
  | none => exact Nat.zero_le 1
  | some pc => cases pc <;> simp [LoopPc.isPicked, LoopPc.isEntering]

theorem begun_of_claimed (hclaimed : t.claimed? = s.claimed?) : begun s t = 0 :=
  if_neg fun h => h.2 (hclaimed.trans h.1)

theorem begun_of_none (hclaimed : t.claimed? = none) : begun s t = 0 := if_neg fun h => h.2 hclaimed

theorem begun_le (s t : RealTimeScheduler) : begun s t ≤ 1 := by
  rw [begun]
  split_ifs <;> decide

theorem due_of_pc {pc : LoopPc} (hpc : t.worker = .running pc) (hnot : pc.isPicked = false) :
    t.due = 0 := by
  rw [due, hpc, WorkerThread.pc?_running, Option.any_some, hnot]
  rfl

/-- The loop is where it was. -/
theorem due_of_worker (hworker : t.worker = s.worker) : begun s t + t.due ≤ s.due := by
  have hclaimed : t.claimed? = s.claimed? := by rw [claimed?, hworker, claimed?]
  rw [begun_of_claimed hclaimed, due, hworker, due]
  exact (Nat.zero_add _).le

/-- **A step of the loop, with `running_` clear**: what begins was due. -/
theorem due_of_loopMove (hmove : LoopMove s t) (hr : s.running = false) :
    begun s t + t.due ≤ s.due := by
  cases hmove with
  | exit hpc _ =>
    have hnone : claimed? { s with worker := .exited } = none := rfl
    rw [begun_of_none hnone]
    exact Nat.zero_le _
  | arm hpc hrun _ => exact absurd (hr.symm.trans hrun) Bool.false_ne_true
  | wake hpc hrun => exact absurd (hr.symm.trans hrun) Bool.false_ne_true
  | select now plan last hpc =>
    rw [begun_of_none rfl, due_of_pc rfl rfl]
    exact Nat.zero_le _
  | endCycle plan hpc =>
    rw [begun_of_none rfl, due_of_pc rfl rfl]
    exact Nat.zero_le _
  | pick id plan plan' hpc _ hrun => exact absurd (hr.symm.trans hrun) Bool.false_ne_true
  | claim id plan hpc =>
    have hdue : s.due = 1 := by
      rw [due, hpc]
      rfl
    have hafter : (s.claim id plan).due = 0 := by
      unfold RealTimeScheduler.claim
      split
      · split
        · exact due_of_pc rfl rfl
        · exact due_of_pc rfl rfl
      · exact due_of_pc rfl rfl
    rw [hdue, hafter]
    exact begun_le _ _
  | asyncDone block plan hpc =>
    have hclaimed : (s.goto (.processSync block plan)).claimed? = s.claimed? := by
      rw [claimed?, claimed?, hpc]
      rfl
    rw [begun_of_claimed hclaimed, due_of_pc rfl rfl]
    exact Nat.zero_le _
  | bodyDone block success plan hpc =>
    have hclaimed : (s.goto (.finalizing block success plan)).claimed? = s.claimed? := by
      rcases hpc with hpc | hpc
      · rw [claimed?, claimed?, hpc]
        rfl
      · rw [claimed?, claimed?, hpc]
        rfl
    rw [begun_of_claimed hclaimed, due_of_pc rfl rfl]
    exact Nat.zero_le _
  | finalize block plan result now hpc =>
    have hbefore : s.claimed? ≠ none := by
      rw [claimed?, hpc]
      exact Option.some_ne_none block
    have hnot : begun s (s.finalizeTaskExecution block plan result now) = 0 :=
      if_neg fun h => hbefore h.1
    obtain ⟨pc, hafter, hpicked⟩ : ∃ pc,
        (s.finalizeTaskExecution block plan result now).worker = .running pc ∧
          pc.isPicked = false := by
      unfold finalizeTaskExecution
      split
      · exact ⟨_, rfl, rfl⟩
      · refine ⟨_, rfl, ?_⟩
        split_ifs <;> rfl
    rw [hnot, due_of_pc hafter hpicked]
    exact Nat.zero_le _
  | report unit times plan hpc =>
    rw [begun_of_none rfl, due_of_pc rfl rfl]
    exact Nat.zero_le _

/-- No step of the loop sets `running_`, or clears it. -/
theorem LoopMove.running (hmove : LoopMove s t) : t.running = s.running := by
  cases hmove with
  | claim id plan _ =>
    unfold RealTimeScheduler.claim
    split
    · split <;> rfl
    · rfl
  | finalize block plan result now _ =>
    unfold finalizeTaskExecution
    split <;> rfl
  | _ => rfl

/-- The record of a run: of each `halt()` since the last `start()`, how many executions began after
it. -/
abbrev HaltRecord := List ℕ

/-- The record after an action.  An execution that is about to begin when the halt comes is counted. -/
def recordHalts (s : RealTimeScheduler) (a : TaskAction) (t : RealTimeScheduler) (h : HaltRecord) :
    HaltRecord :=
  match a with
  | .start _ => []
  | .halt => s.entering :: h
  | _ => h.map (begun s t + ·)

end RealTimeScheduler

/-- A scheduler and the record of its halts. -/
abbrev HaltRun := RealTimeScheduler × RealTimeScheduler.HaltRecord

namespace HaltRun

open RealTimeScheduler

/-- **The runs of a scheduler**, from its construction. -/
def machine : Machine HaltRun TaskAction :=
  Machine.withHistory ⟨fun s => ∃ policy, s = .new policy, RealTimeScheduler.act⟩ [] recordHalts

/-- **After a halt**: `running_` is clear, and what has begun and what is due are at most one. -/
structure HaltInv (s : RealTimeScheduler) (h : HaltRecord) : Prop where
  halted : h ≠ [] → s.running = false
  atMost : ∀ n ∈ h, n + s.due ≤ 1

variable {s t : RealTimeScheduler} {h : HaltRecord}

/-- An action that leaves `running_` clear, and begins only what was due. -/
theorem HaltInv.of_due (hI : HaltInv s h) (hrun : s.running = false → t.running = false)
    (hdue : s.running = false → begun s t + t.due ≤ s.due) : HaltInv t (h.map (begun s t + ·)) where
  halted hne := hrun (hI.halted fun hnil => hne (by rw [hnil, List.map_nil]))
  atMost := by
    intro n hn
    obtain ⟨m, hm, rfl⟩ := List.mem_map.mp hn
    have hstep := hdue (hI.halted (List.ne_nil_of_mem hm))
    have hbefore := hI.atMost m hm
    omega

/-- An action of another thread, with the loop where it was. -/
theorem HaltInv.of_same (hI : HaltInv s h) (hworker : t.worker = s.worker)
    (hrun : t.running = s.running) : HaltInv t (h.map (begun s t + ·)) :=
  hI.of_due (fun hr => hrun.trans hr) fun _ => due_of_worker hworker

theorem HaltInv.loop (hI : HaltInv s h) {step : LoopStep} (hstep : s.loopStep step = some t) :
    HaltInv t (h.map (begun s t + ·)) := by
  have hmove := loopMove_of_loopStep hstep
  refine hI.of_due (fun hr => ?_) (due_of_loopMove hmove)
  exact hmove.running.trans hr

/-- **Every action.** -/
theorem HaltInv.act (hI : HaltInv s h) {a : TaskAction} (hact : s.act a = some t) :
    HaltInv t (recordHalts s a t h) := by
  cases a with
  | addTask unit name constraints now =>
    obtain ⟨⟩ := hact
    rcases CycleRun.addTask_cases s unit name constraints now with hsame | ⟨block, pool, hadded⟩
    · exact hI.of_same (by rw [hsame]) (by rw [hsame])
    · exact hI.of_same (by rw [hadded]) (by rw [hadded])
  | removeTask taskId =>
    obtain ⟨⟩ := hact
    refine hI.of_same (s.removeTask_frame taskId).2.2.1 ?_
    unfold removeTask
    split
    · rfl
    · split
      · rfl
      · split <;> rfl
  | updateTaskConstraints taskId constraints =>
    obtain ⟨⟩ := hact
    unfold updateTaskConstraints
    split <;> exact hI.of_same rfl rfl
  | loop step => exact hI.loop hact
  | customPick id =>
    simp only [RealTimeScheduler.act] at hact
    split at hact
    next left hpc =>
      -- the custom scheduler is asked only where the flag was set
      obtain ⟨hrun, -⟩ := Option.ite_none_right_eq_some.mp hact
      have hnil : h = [] := by
        by_contra hne
        exact Bool.false_ne_true ((hI.halted hne).symm.trans hrun)
      subst hnil
      exact ⟨fun hne => absurd rfl hne, fun n hn => absurd hn List.not_mem_nil⟩
    · cases hact
  | start spawned => exact ⟨fun hne => absurd rfl hne, fun n hn => absurd hn List.not_mem_nil⟩
  | halt =>
    obtain ⟨⟩ := hact
    refine ⟨fun _ => rfl, fun n hn => ?_⟩
    rcases List.mem_cons.mp hn with rfl | hold
    · exact entering_add_due_le s
    · exact hI.atMost n hold
  | join =>
    simp only [RealTimeScheduler.act] at hact
    split at hact
    · cases hact
    · obtain ⟨⟩ := hact
      refine hI.of_due id fun _ => ?_
      rw [begun_of_none rfl]
      exact Nat.zero_le _
  | _ =>
    obtain ⟨⟩ := hact
    exact hI.of_same rfl rfl

/-- **After every halt, at most one execution begins** until a later start, under every policy. -/
theorem begun_after_halt_le_one {p : HaltRun} (hr : machine.Reachable p) : ∀ n ∈ p.2, n ≤ 1 := by
  have hI : HaltInv p.1 p.2 := by
    refine Machine.ReachableUnder.invariant (I := fun p : HaltRun => HaltInv p.1 p.2)
      ⟨fun p hp => ?_, fun p a q hI _ hstep => ?_⟩ hr
    · obtain ⟨-, hh⟩ := hp
      rw [hh]
      exact ⟨fun hne => absurd rfl hne, fun n hn => absurd hn List.not_mem_nil⟩
    · obtain ⟨hact, hrec⟩ := Machine.withHistory_step.mp hstep
      exact hrec ▸ hI.act hact
  intro n hn
  exact (Nat.le_add_right n _).trans (hI.atMost n hn)

/-- A halt between the selection of a task and its claim, with another task ready. -/
def haltedAtPick : List TaskAction :=
  [.addTask 7 "camera" { period := 1 } 0, .addTask 8 "motor" { period := 1 } 0, .start true,
    .loop .advance, .loop .advance, .loop (.select 10 [1, 2]), .loop .advance, .halt,
    .loop .advance, .loop .bodyReturns, .loop .bodyReturns, .loop (.finalize 10 11 11),
    .loop .advance, .loop .advance]

/-- The selected task is executed after it, the other is not. -/
theorem begun_after_halt_at_pick : ∃ p, machine.Reachable p ∧ p.1.loopAlive = false ∧ p.2 = [1] ∧
    ∀ n ∈ p.2, n ≤ 1 := by
  have hrun : (machine.exec (.new .priorityBased, []) haltedAtPick).any (fun p =>
      decide (p.1.loopAlive = false) && decide (p.2 = [1])) = true := by decide +kernel
  obtain ⟨p, hp, hend⟩ := (Option.any_eq_true _ _).mp hrun
  rw [Bool.and_eq_true, decide_eq_true_eq, decide_eq_true_eq] at hend
  have hr : machine.Reachable p := Machine.Reachable.exec (.init ⟨⟨_, rfl⟩, rfl⟩) hp
  exact ⟨p, hr, hend.1, hend.2, begun_after_halt_le_one hr⟩

end HaltRun

end AxonVex
