import AxonVex.Machinery.WorkerWaits

/-!
# Machinery/WorkerSafety — one worker, and joins that end

`WorkerClass.safe`: in every run of a disciplined class in which no call sets a flag of the loop
behind the back of a call that is about to wait, there is one worker at most, no handle is
overwritten, no thread joins itself, the resource of the loop is closed only when the loop is gone,
and a thread that waits for the worker waits for a loop whose condition is false.
-/

namespace Machinery

namespace WorkerClass

variable {F C : Type*} [DecidableEq F] (W : WorkerClass F C)

/-- No other thread is about to wait for the loop. -/
def Unwatched (p : Workers F) (t : WorkerId) : Prop :=
  ∀ u rest, u ≠ t → p.threads u = .caller rest → Stmt.awaits W.loop rest = false

/-- **The loop is started** only when nobody is about to wait for it, and, in a call that does not
look at the handle, only when there is no worker to replace. -/
def Undisturbed (p : Workers F) : WorkerLabel C → Prop
  | .step t =>
    (∀ flag rest, (p.threads t).rest? = some (.store flag true :: rest) →
      (p.store flag true).allSet W.loop = true → W.Unwatched p t) ∧
    ∀ flag rest, (p.threads t).rest? = some (.returnIfExchanged flag :: rest) →
      p.flags flag = false →
        ((p.store flag true).allSet W.loop = true → W.Unwatched p t) ∧
        (Stmt.needsNoWorker rest = true → p.handle = none)
  | _ => True

/-- **What is promised of the threads.** -/
structure Safe (p : Workers F) : Prop where
  oneWorker : ∀ t u, (p.threads t).alive = true → (p.threads u).alive = true → t = u
  notOverwritten : ∀ t rest, (p.threads t).rest? = some (.spawn :: rest) → p.handle = none
  noSelfJoin : ∀ t rest, (p.threads t).rest? = some (.join :: rest) → p.handle ≠ some t
  /-- who waits, waits for a loop that ends -/
  joinEnds : ∀ t rest, (p.threads t).rest? = some (.join :: rest) → p.allSet W.loop = false
  closedAfter : ∀ t rest, (p.threads t).rest? = some (.close :: rest) →
    ∀ u, (p.threads u).alive = false

/-! ## The invariant -/

/-- What the thread `t` relies on with this rest of its call is the case. -/
structure Relies (p : Workers F) (worker : Bool) (rest : List (Stmt F)) : Prop where
  code : Stmt.disciplined W.loop rest = true
  noWorker : Stmt.needsNoWorker rest = true → p.handle = none
  awaits : worker = false → Stmt.awaits W.loop rest = true → p.allSet W.loop = false
  caller : worker = true → Stmt.needsCaller rest = false

/-- **The invariant of a class with a worker.** -/
structure Inv (p : Workers F) : Prop where
  mutex : Owns p.mutex p.threads WorkerPc.holds
  handle : Owns p.handle p.threads WorkerPc.isWorker
  workerId : Owns p.workerId p.threads WorkerPc.published
  threads : ∀ t rest, (p.threads t).rest? = some rest →
    W.Relies p (p.threads t).isWorker rest

variable {W} {p q : Workers F} {t : WorkerId} {rest rest' : List (Stmt F)}

theorem Inv.safe (h : W.Inv p) : W.Safe p where
  oneWorker t u ht hu :=
    h.handle.unique (WorkerPc.isWorker_of_alive ht) (WorkerPc.isWorker_of_alive hu)
  notOverwritten t rest ht := (h.threads t _ ht).noWorker rfl
  noSelfJoin t rest ht := by
    intro hself
    have hcaller := (h.threads t _ ht).caller ((h.handle t).mpr hself)
    exact absurd hcaller (by simp [Stmt.needsCaller])
  joinEnds t rest ht := by
    cases hw : (p.threads t).isWorker with
    | false => exact (h.threads t _ ht).awaits hw rfl
    | true => exact absurd ((h.threads t _ ht).caller hw) (by simp [Stmt.needsCaller])
  closedAfter t rest ht u := by
    have hnone : p.handle = none := (h.threads t _ ht).noWorker rfl
    rw [Bool.eq_false_iff]
    intro hu
    have := (h.handle u).mp (WorkerPc.isWorker_of_alive hu)
    rw [hnone] at this
    exact absurd this (by simp)

/-! ## One step -/

/-- The invariant is that of the mutex and the handle, that of the published id, and that who waits
finds a flag of the loop cleared. -/
theorem inv_iff : W.Inv p ↔ W.Custody p ∧ Identity p ∧ ∀ t rest, p.threads t = .caller rest →
    Stmt.awaits W.loop rest = true → p.allSet W.loop = false := by
  constructor
  · intro h
    refine ⟨⟨h.mutex, h.handle, fun t rest ht => (h.threads t rest ht).code,
      fun t rest ht => (h.threads t rest ht).noWorker⟩,
      ⟨h.workerId, fun t rest ht => (h.threads t rest ht).caller⟩, fun t rest ht => ?_⟩
    have hrelies := h.threads t rest (by rw [ht]; rfl)
    exact hrelies.awaits (by rw [ht]; rfl)
  · rintro ⟨hC, hI, hends⟩
    exact ⟨hC.mutex, hC.handle, hI.workerId, fun t rest ht => ⟨hC.code t rest ht,
      hC.noWorker t rest ht, fun hw => hends t rest (WorkerPc.eq_caller hw ht),
      hI.caller t rest ht⟩⟩

theorem Undisturbed.unreplaced {a : WorkerLabel C} (hG : W.Undisturbed p a) :
    Unreplaced p a := by
  cases a with
  | step t => exact fun flag rest ht hclear => (hG.2 flag rest ht hclear).2
  | _ => trivial

/-- A thread that can call, and is not the worker, was not the worker. -/
theorem caller_of_step {u : WorkerId} {a : WorkerLabel C} (hstep : W.step p a = some q)
    (hq : q.threads u = .caller rest') (hp : (p.threads u).rest? = some rest) :
    p.threads u = .caller rest := by
  refine WorkerPc.eq_caller (Bool.eq_false_iff.mpr fun hw => ?_) hp
  have hphase := phase_step (u := u) hstep
  rw [hq] at hphase
  generalize hnow : phase (.caller rest' : WorkerPc F) = now at hphase
  cases hphase with
  | same => exact isWorker_iff_phase.mp hw hnow.symm
  | reaped hended =>
    rw [hended] at hp
    exact absurd hp (by simp [WorkerPc.rest?])
  | tested =>
    rcases W.afterLoop_cases with hl | hl <;> rw [hl] at hnow <;> exact absurd hnow (by simp [phase])
  | _ => exact absurd hnow (by simp [phase])

/-- What is set after a store of a flag was set before, or is that flag. -/
theorem allSet_of_stored {flag : F} {value : Bool} {a : WorkerLabel C}
    (hstep : W.step p a = some q) (hwrites : W.Writes p flag a true) (hall : q.allSet W.loop = true)
    (hvalue : value = true) : (p.store flag value).allSet W.loop = true := by
  subst hvalue
  refine List.all_eq_true.mpr fun f hf => ?_
  have hset : q.flags f = true := List.all_eq_true.mp hall f hf
  by_cases hff : f = flag
  · exact hff ▸ Function.update_self ..
  · refine (Function.update_of_ne hff ..).trans ?_
    rcases flags_step hstep f with hsame | hother
    · rw [← hsame, hset]
    · -- the step is of one statement, which sets one flag
      rw [hset] at hother
      cases hwrites with
      | stored ht =>
        cases hother with
        | stored ht' =>
          have hhead := (List.cons.inj (Option.some.inj (ht.symm.trans ht'))).1
          exact absurd (Stmt.store.inj hhead).1.symm hff
        | exchanged ht' =>
          exact absurd (List.cons.inj (Option.some.inj (ht.symm.trans ht'))).1 (by simp)
      | exchanged ht =>
        cases hother with
        | stored ht' =>
          exact absurd (List.cons.inj (Option.some.inj (ht.symm.trans ht'))).1 (by simp)
        | exchanged ht' =>
          have hhead := (List.cons.inj (Option.some.inj (ht.symm.trans ht'))).1
          exact absurd (Stmt.returnIfExchanged.inj hhead).symm hff

/-- While a thread waits no other sets the last flag of the loop. -/
theorem Undisturbed.allSet_step {u : WorkerId} {a : WorkerLabel C} (hG : W.Undisturbed p a)
    (hstep : W.step p a = some q) (hu : p.threads u = .caller rest) (hau : a.actor ≠ u)
    (ha : Stmt.awaits W.loop rest = true) (hp : p.allSet W.loop = false) :
    q.allSet W.loop = false := by
  rw [Bool.eq_false_iff]
  intro hall
  obtain ⟨flag, hmem, hclear⟩ := List.all_eq_false.mp hp
  have hset : q.flags flag = true := List.all_eq_true.mp hall flag hmem
  rcases flags_step hstep flag with hsame | hwrites
  · exact hclear (hsame ▸ hset)
  · rw [hset] at hwrites
    have hstored := allSet_of_stored hstep hwrites hall rfl
    have hwatched {t : WorkerId} (htu : t ≠ u) (hun : W.Unwatched p t) : False := by
      rw [hun u rest (Ne.symm htu) hu] at ha
      exact absurd ha (by simp)
    cases hwrites with
    | stored ht => exact hwatched hau (hG.1 flag _ ht hstored)
    | exchanged ht => exact hwatched hau ((hG.2 flag _ ht (by simpa using hclear)).1 hstored)

/-- **Every step of an undisturbed run keeps the invariant.** -/
theorem Inv.step (hW : W.Disciplined) (h : W.Inv p) {a : WorkerLabel C} (hG : W.Undisturbed p a)
    (hstep : W.step p a = some q) : W.Inv q := by
  obtain ⟨hC, hI, hends⟩ := inv_iff.mp h
  refine inv_iff.mpr ⟨hC.step hW hG.unreplaced hstep, hI.step hW hC hstep, fun u rest' hu ha => ?_⟩
  have hr : (q.threads u).rest? = some rest' := by rw [hu]; rfl
  cases rest_step hstep hr with
  | kept hold hau =>
    have hcaller := caller_of_step hstep hu hold
    exact hG.allSet_step hstep hcaller hau ha (hends u _ hcaller ha)
  | empty => exact absurd ha (by simp [Stmt.awaits])
  | called =>
    rw [(hW _).awaits] at ha
    exact absurd ha (by simp)
  | ran ht hact hexec =>
    obtain rfl := hact
    have hfits := (Stmt.disciplined_cons.mp (hC.code u _ ht)).1
    rw [step_ran ht hexec hstep]
    exact Workers.awaits_exec hfits (hends u _ (caller_of_step hstep hu ht)) hexec ha
  | opened => exact absurd ha (by simp)
  | spawned ht hact =>
    refine (allSet_spawn (hact ▸ hstep)).trans (hends u _ (caller_of_step hstep hu ht) ha)

/-- Before anything is called there is no worker. -/
theorem inv_init : W.Inv ({} : Workers F) where
  mutex _ := ⟨fun h => absurd h (by simp [WorkerPc.holds, WorkerPc.rest?]), fun h => absurd h (by simp)⟩
  handle _ := ⟨fun h => absurd h (by simp [WorkerPc.isWorker]), fun h => absurd h (by simp)⟩
  workerId _ := ⟨fun h => absurd h (by simp [WorkerPc.published]), fun h => absurd h (by simp)⟩
  threads _ _ h := absurd h (by simp [WorkerPc.rest?])

/-! ## A first call

A thread that nobody else has joined yet disturbs nobody. -/

/-- The thread `t` is alone, and there is no worker. -/
structure Alone (p : Workers F) (t : WorkerId) : Prop where
  others : ∀ u, u ≠ t → p.threads u = .absent
  noWorker : p.handle = none

theorem Alone.undisturbed (h : Alone p t) : W.Undisturbed p (.step t : WorkerLabel C) := by
  have hunwatched : W.Unwatched p t := by
    intro u rest hut hu
    rw [h.others u hut] at hu
    cases hu
  exact ⟨fun _ _ _ _ => hunwatched, fun _ _ _ _ => ⟨fun _ => hunwatched, fun _ => h.noWorker⟩⟩

theorem Alone.step (h : Alone p t) (hstep : W.step p (.step t : WorkerLabel C) = some q) :
    Alone q t := by
  cases threadStep hstep with
  | @ran stmt rest r ht hexec =>
    constructor
    · intro u hut
      refine (Function.update_of_ne hut ..).trans ?_
      rcases Workers.threads_exec hexec u with hsame | ⟨-, habsent⟩
      · rw [hsame, h.others u hut]
      · exact habsent
    · rcases Workers.handle_exec hexec with hsame | hnone
      · exact hsame.trans h.noWorker
      · exact hnone
  | moved _ _ _ _ _ hsame hthreads =>
    refine ⟨fun u hut => ?_, hsame.2.2.trans h.noWorker⟩
    rw [hthreads, Function.update_of_ne hut, h.others u hut]
  | left =>
    exact ⟨fun u hut => (Function.update_of_ne hut ..).trans (h.others u hut), h.noWorker⟩

theorem Alone.allowed (h : Alone p t) (n : ℕ) {labels : List (WorkerLabel C)}
    (hlabels : ∀ q, Alone q t → W.machine.Allowed W.Undisturbed q labels) :
    W.machine.Allowed W.Undisturbed p (List.replicate n (.step t) ++ labels) := by
  induction n generalizing p with
  | zero => exact hlabels p h
  | succ n ih => exact fun q hq => ⟨h.undisturbed, ih (h.step hq)⟩

/-- A first call, up to the creation of the worker. -/
theorem allowed_first_call (t : WorkerId) (c : C) (n : ℕ) (new : WorkerId) :
    W.machine.Allowed W.Undisturbed {}
      (.arrive t :: .call t c :: (List.replicate n (.step t) ++ [.spawn t new])) := by
  intro p hp
  refine ⟨trivial, fun q hq => ⟨trivial, ?_⟩⟩
  have hpt : Alone p t := by
    have harrived : some (({} : Workers F).setThread t (.caller [])) = some p := hp
    obtain ⟨⟩ := harrived
    exact ⟨fun u hut => Function.update_of_ne hut .., rfl⟩
  have hqt : Alone q t := by
    simp only [machine, WorkerClass.step] at hq
    split_ifs at hq
    obtain ⟨⟩ := hq
    exact ⟨fun u hut => (Function.update_of_ne hut ..).trans (hpt.others u hut), hpt.noWorker⟩
  exact hqt.allowed n fun _ _ _ _ => ⟨trivial, trivial⟩

theorem inductive_inv (hW : W.Disciplined) : W.machine.Inductive W.Undisturbed W.Inv where
  init _ hp := hp ▸ inv_init
  step _ _ _ h hG hstep := h.step hW hG hstep

/-- **A disciplined class is safe** in every run that no call disturbs. -/
theorem safe (hW : W.Disciplined) (h : W.machine.ReachableUnder W.Undisturbed p) : W.Safe p :=
  (h.invariant (inductive_inv hW)).safe

end WorkerClass

end Machinery
