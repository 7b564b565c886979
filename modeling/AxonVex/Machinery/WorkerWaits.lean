import AxonVex.Machinery.WorkerCustody

/-!
# Machinery/WorkerWaits — who the worker is, and who waits for it

In every run of a disciplined class the published id is that of the worker, and the worker is never
about to join (`WorkerClass.Identity`).

Whether a wait ends is another matter: a call may set the flags of the loop while another waits.
Where the code sets flags only with the mutex, and waits only with it (`Stmt.locked`, a check on the
text for any list of flags), it cannot: whoever waits finds one of the flags cleared, in every run
(`WorkerClass.Waits`).
-/

namespace Machinery

variable {F C : Type*}

/-- Positions that agree about the mutex, thread by thread. -/
theorem Owns.congr {ι P : Type*} {owner : Option ι} {pcs pcs' : ι → P} {holds : P → Bool}
    (h : Owns owner pcs holds) (hpcs : ∀ i, holds (pcs' i) = holds (pcs i)) :
    Owns owner pcs' holds := fun i => by rw [hpcs i]; exact h i

namespace Stmt

variable [DecidableEq F] {loop : List F} {stmt : Stmt F} {rest rest' : List (Stmt F)}

/-- What may be left after a statement is disciplined. -/
theorem Next.disciplined (h : Next stmt rest rest')
    (hd : Stmt.disciplined loop (stmt :: rest) = true) : Stmt.disciplined loop rest' = true := by
  have hrest := (disciplined_cons.mp hd).2
  cases h with
  | goOn => exact hrest
  | back => exact disciplined_unwind
  | skip => exact disciplined_drop hrest _
  | further => exact disciplined_cons.mpr ⟨rfl, hrest⟩

/-- Whether the statement sets one of the flags in `loop`. -/
def sets (loop : List F) : Stmt F → Bool
  | store flag value => value && flag ∈ loop
  | returnIfExchanged flag => flag ∈ loop
  | _ => false

/-- **The flags in `loop` are set, and waited for, with the mutex only.** -/
def locked (loop : List F) : List (Stmt F) → Bool
  | [] => true
  | stmt :: rest =>
    (!(awaits loop (stmt :: rest) || sets loop stmt) || held (stmt :: rest)) && locked loop rest

theorem locked_cons : locked loop (stmt :: rest) = true ↔
    ((awaits loop (stmt :: rest) || sets loop stmt) = true → held (stmt :: rest) = true) ∧
      locked loop rest = true := by
  rw [locked, Bool.and_eq_true, Bool.or_eq_true, Bool.not_eq_true', ← Bool.not_eq_true, imp_iff_not_or]

theorem locked_drop (h : locked loop rest = true) (n : ℕ) : locked loop (rest.drop n) = true := by
  induction rest generalizing n with
  | nil => simpa using h
  | cons stmt rest ih =>
    cases n with
    | zero => exact h
    | succ n => exact ih (locked_cons.mp h).2 n

theorem held_of_awaits (h : locked loop rest = true) (ha : awaits loop rest = true) :
    held rest = true := by
  cases rest with
  | nil => exact absurd ha (by simp [awaits])
  | cons stmt rest =>
    exact (locked_cons.mp h).1 (by rw [ha, Bool.true_or])

/-- Who is about to set one of the flags has the mutex. -/
theorem held_of_sets (h : locked loop (stmt :: rest) = true) (hs : sets loop stmt = true) :
    held (stmt :: rest) = true :=
  (locked_cons.mp h).1 (by rw [hs, Bool.or_true])

@[simp] theorem locked_unwind : locked loop (unwind rest) = true := by
  unfold unwind
  split_ifs <;> rfl

/-- What may be left after a statement is locked. -/
theorem Next.locked (h : Next stmt rest rest') (hl : Stmt.locked loop (stmt :: rest) = true) :
    Stmt.locked loop rest' = true := by
  cases h with
  | goOn => exact (locked_cons.mp hl).2
  | back => exact locked_unwind
  | skip => exact locked_drop (locked_cons.mp hl).2 _
  | @further flag flags =>
    have hrest := (locked_cons.mp hl).2
    refine locked_cons.mpr ⟨fun ha => ?_, hrest⟩
    have hawaits : awaits loop rest = true := awaits_of_returnIf (by simpa [sets] using ha)
    have hheld : held rest = true := held_of_awaits hrest hawaits
    exact hheld

end Stmt

/-- Whether the statement writes a flag. -/
def Stmt.writes : Stmt F → Bool
  | .store _ _ => true
  | .returnIfExchanged _ => true
  | _ => false

/-- What writes a flag stood in the call before. -/
theorem Stmt.Next.mem_of_writes {s stmt : Stmt F} {rest rest' : List (Stmt F)}
    (h : Stmt.Next stmt rest rest') (hs : s ∈ rest') (hw : s.writes = true) : s ∈ rest := by
  cases h with
  | goOn => exact hs
  | back =>
    have hunlock : s = .unlock := by
      unfold unwind at hs
      split_ifs at hs
      · exact List.mem_singleton.mp hs
      · exact absurd hs List.not_mem_nil
    rw [hunlock] at hw
    exact absurd hw (by simp [writes])
  | skip => exact List.mem_of_mem_drop hs
  | further =>
    rcases List.mem_cons.mp hs with rfl | hmem
    · exact absurd hw (by simp [writes])
    · exact hmem

namespace Workers

variable [DecidableEq F] {p : Workers F} {t u : WorkerId} {stmt : Stmt F} {rest : List (Stmt F)}
  {r : Workers F × List (Stmt F)} {flags : List F}

omit [DecidableEq F] in
theorem allSet_congr {q : Workers F} (h : ∀ flag ∈ flags, q.flags flag = p.flags flag) :
    q.allSet flags = p.allSet flags := by
  rw [Bool.eq_iff_iff, allSet, allSet, List.all_eq_true, List.all_eq_true]
  exact forall₂_congr fun flag hmem => by rw [h flag hmem]

theorem allSet_store_of_notMem {flag : F} {value : Bool} (hmem : flag ∉ flags) :
    (p.store flag value).allSet flags = p.allSet flags :=
  allSet_congr fun _ hf => Function.update_of_ne (ne_of_mem_of_not_mem hf hmem) ..

theorem allSet_store_false {flag : F} (hmem : flag ∈ flags) :
    (p.store flag false).allSet flags = false := by
  rw [allSet, List.all_eq_false]
  exact ⟨flag, hmem, by simp [store]⟩

/-- The published id is cleared by one statement only. -/
theorem workerId_exec (h : p.exec t stmt rest = some r) :
    r.1.workerId = p.workerId ∨ stmt = .clearId ∧ r.1.workerId = none := by
  cases stmt with
  | clearId =>
    obtain ⟨⟩ := h
    exact .inr ⟨rfl, rfl⟩
  | join =>
    obtain ⟨q, hq, rfl⟩ := Option.map_eq_some_iff.mp h
    obtain ⟨w, -, hif⟩ := Option.bind_eq_some_iff.mp hq
    split_ifs at hif
    exact .inl (congrArg (·.workerId) (Option.some.inj hif).symm)
  | returnIfExchanged flag =>
    simp only [exec] at h
    split_ifs at h <;> exact .inl (congrArg (·.1.workerId) (Option.some.inj h).symm)
  | returnIf flags => cases flags <;> exact .inl (congrArg (·.1.workerId) (Option.some.inj h).symm)
  | lock =>
    simp only [exec] at h
    split_ifs at h
    exact .inl (congrArg (·.1.workerId) (Option.some.inj h).symm)
  | spawn => exact absurd h (by simp [exec])
  | _ => exact .inl (congrArg (·.1.workerId) (Option.some.inj h).symm)

/-- A statement publishes nothing, and hides nobody. -/
theorem published_exec (h : p.exec t stmt rest = some r) :
    ((r.1.setRest t r.2).threads u).published = (p.threads u).published := by
  have hold : (r.1.threads u).published = (p.threads u).published := by
    rcases threads_exec h u with hsame | ⟨hended, habsent⟩
    · rw [hsame]
    · rw [habsent, hended]
      rfl
  change (Function.update r.1.threads t _ u).published = _
  by_cases hut : u = t
  · subst hut
    rw [Function.update_self, WorkerPc.published_withRest, hold]
  · rw [Function.update_of_ne hut, hold]

/-- **A wait is for a cleared flag** once the statement in front of it is done. -/
theorem awaits_exec {loop : List F} (hfits : Stmt.fits loop stmt rest = true)
    (hp : Stmt.awaits loop (stmt :: rest) = true → p.allSet loop = false)
    (h : p.exec t stmt rest = some r) (ha : Stmt.awaits loop r.2 = true) :
    r.1.allSet loop = false := by
  cases stmt with
  | store flag value =>
    obtain ⟨⟩ := h
    by_cases hmem : flag ∈ loop
    · cases value with
      | false => exact allSet_store_false hmem
      | true => simp [Stmt.fits, hmem, show Stmt.awaits loop rest = true from ha] at hfits
    · have hsame : (p.store flag value).allSet loop = p.allSet loop := allSet_store_of_notMem hmem
      exact hsame.trans (hp (by simpa [Stmt.awaits, hmem] using ha))
  | returnIf flags =>
    cases flags with
    | nil =>
      obtain ⟨⟩ := h
      exact absurd ha (by simp)
    | cons flag flags =>
      obtain ⟨⟩ := h
      by_cases hloop : (flag :: flags).all (· ∈ loop)
      · rw [List.all_cons, Bool.and_eq_true] at hloop
        by_cases hset : p.flags flag
        · simp [hset, Stmt.awaits, hloop.2] at ha
        · exact List.all_eq_false.mpr ⟨flag, of_decide_eq_true hloop.1, hset⟩
      · refine hp ?_
        rw [Stmt.awaits, if_neg hloop]
        dsimp only at ha
        split_ifs at ha
        · exact Stmt.awaits_of_returnIf ha
        · exact ha
  | returnUnless flag =>
    obtain ⟨⟩ := h
    dsimp only at ha
    split_ifs at ha
    · exact hp ha
    · exact absurd ha (by simp)
  | returnIfExchanged flag =>
    simp only [exec] at h
    split_ifs at h with hset
    · obtain ⟨⟩ := h
      exact absurd ha (by simp)
    · obtain ⟨⟩ := h
      by_cases hmem : flag ∈ loop
      · simp [Stmt.fits, hmem, show Stmt.awaits loop rest = true from ha] at hfits
      · have hsame : (p.store flag true).allSet loop = p.allSet loop := allSet_store_of_notMem hmem
        exact hsame.trans (hp (by simpa [Stmt.awaits, hmem] using ha))
  | returnOnWorker =>
    obtain ⟨⟩ := h
    dsimp only at ha
    split_ifs at ha
    · exact absurd ha (by simp)
    · exact hp ha
  | lock =>
    simp only [exec] at h
    split_ifs at h
    obtain ⟨⟩ := h
    exact hp ha
  | ifJoinable n =>
    obtain ⟨⟩ := h
    simp only [Stmt.fits, Bool.and_eq_true, Bool.or_eq_true, Bool.not_eq_true'] at hfits
    dsimp only at ha
    split_ifs at ha
    · exact hp ha
    · exact hp (hfits.2.resolve_right (by simp [ha]))
  | join =>
    obtain ⟨q, hq, rfl⟩ := Option.map_eq_some_iff.mp h
    obtain ⟨w, -, hif⟩ := Option.bind_eq_some_iff.mp hq
    split_ifs at hif
    obtain ⟨⟩ := hif
    exact hp rfl
  | spawn => exact absurd h (by simp [exec])
  | _ =>
    obtain ⟨⟩ := h
    exact hp ha

end Workers

namespace WorkerClass

variable [DecidableEq F] {W : WorkerClass F C} {p q : Workers F} {t u : WorkerId}
  {rest : List (Stmt F)} {a : WorkerLabel C}

/-- The step of a thread in a call is that of the statement. -/
theorem step_ran {stmt : Stmt F} {r : Workers F × List (Stmt F)}
    (ht : (p.threads t).rest? = some (stmt :: rest)) (hexec : p.exec t stmt rest = some r)
    (hstep : W.step p (.step t : WorkerLabel C) = some q) : q = r.1.setRest t r.2 := by
  cases threadStep hstep with
  | ran ht' hexec' =>
    obtain ⟨rfl, rfl⟩ := List.cons.inj (Option.some.inj (ht.symm.trans ht'))
    rw [Option.some.inj (hexec.symm.trans hexec')]
  | moved _ hrest => exact absurd (hrest _ ht) (by simp)
  | left hpc =>
    rw [hpc] at ht
    exact absurd ht (by simp [WorkerPc.rest?])

/-- What writes a flag in a call stands in the code. -/
theorem mem_of_step {s : Stmt F} {rest' : List (Stmt F)} (hstep : W.step p a = some q)
    (hr : (q.threads u).rest? = some rest') (hs : s ∈ rest') (hw : s.writes = true) :
    (∃ rest, (p.threads u).rest? = some rest ∧ s ∈ rest) ∨ ∃ c, a = .call u c ∧ s ∈ W.code c := by
  cases rest_step hstep hr with
  | kept hold => exact .inl ⟨_, hold, hs⟩
  | empty => exact absurd hs List.not_mem_nil
  | called hcall => exact .inr ⟨_, hcall, hs⟩
  | ran ht _ hexec =>
    have hmem := (Workers.next_exec hexec).mem_of_writes hs hw
    exact .inl ⟨_, ht, List.mem_cons_of_mem _ hmem⟩
  | @opened rest ht =>
    have hback : Stmt.Next .openOrReturn rest (Stmt.unwind rest) := .back
    have hmem := hback.mem_of_writes hs hw
    exact .inl ⟨_, ht, List.mem_cons_of_mem _ hmem⟩
  | spawned ht => exact .inl ⟨_, ht, List.mem_cons_of_mem _ hs⟩

omit [DecidableEq F] in
/-- One other thread is put at another place. -/
theorem rest?_update {pc : WorkerPc F} (htu : t ≠ u) (hu : (p.threads u).rest? = some rest) :
    (Function.update p.threads t pc u).rest? = some rest := by
  rw [Function.update_of_ne (Ne.symm htu), hu]

/-- The other threads stay where they are in their calls. -/
theorem rest?_other (hstep : W.step p a = some q) (hau : a.actor ≠ u)
    (hu : (p.threads u).rest? = some rest) : (q.threads u).rest? = some rest := by
  cases a with
  | step t =>
    cases threadStep hstep with
    | ran ht hexec =>
      refine rest?_update hau ?_
      rcases Workers.threads_exec hexec u with hsame | ⟨hended, -⟩
      · rw [hsame, hu]
      · rw [hended] at hu
        exact absurd hu (by simp [WorkerPc.rest?])
    | moved _ _ _ _ _ _ hthreads =>
      rw [hthreads]
      exact rest?_update hau hu
    | left => exact rest?_update hau hu
  | openFails t =>
    simp only [WorkerClass.step] at hstep
    split at hstep
    next => exact Option.some.inj hstep ▸ rest?_update hau hu
    next => cases hstep
  | spawn t new =>
    simp only [WorkerClass.step] at hstep
    split at hstep
    next rest' ht =>
      split_ifs at hstep with hif
      have hnew : new ≠ u := by
        rintro rfl
        rw [hif.2] at hu
        exact absurd hu (by simp [WorkerPc.rest?])
      have hgo : ((p.setRest t rest').threads u).rest? = some rest := rest?_update hau hu
      exact Option.some.inj hstep ▸ rest?_update hnew hgo
    next => cases hstep
  | fault t =>
    obtain ⟨flag, -, hif⟩ := Option.bind_eq_some_iff.mp hstep
    split_ifs at hif
    exact Option.some.inj hif ▸ rest?_update (p := p) hau hu
  | _ =>
    simp only [WorkerClass.step] at hstep
    split_ifs at hstep
    exact Option.some.inj hstep ▸ rest?_update hau hu

/-- A thread that can call stays where it is while another one steps. -/
theorem threads_other (hstep : W.step p a = some q) (hau : a.actor ≠ u)
    (hu : (p.threads u).rest? = some rest) : q.threads u = p.threads u := by
  have hrest := rest?_other hstep hau hu
  have hphase : phase (q.threads u) = phase (p.threads u) := by
    have hmove := phase_step (u := u) hstep
    generalize phase (q.threads u) = ph at hmove
    cases hmove with
    | same => rfl
    | created _ hnew => exact absurd hu (by rw [hnew]; simp [WorkerPc.rest?])
    | turned htest => exact absurd hu (by rw [htest]; simp [WorkerPc.rest?])
    | tested htest => exact absurd hu (by rw [htest]; simp [WorkerPc.rest?])
    | again ha => exact absurd (congrArg WorkerLabel.actor ha) hau
    | broke ha => exact absurd (congrArg WorkerLabel.actor ha) hau
    | drained ha => exact absurd (congrArg WorkerLabel.actor ha) hau
    | reaped hended => exact absurd hu (by rw [hended]; simp [WorkerPc.rest?])
  revert hrest hphase hu
  generalize p.threads u = pc, q.threads u = pc'
  intro hu hrest hphase
  cases pc <;> cases pc' <;> simp_all [WorkerPc.rest?, phase]

/-- **The steps of a thread in a call.** -/
theorem actor_cases (hstep : W.step p a = some q) {stmt : Stmt F}
    (ht : (p.threads a.actor).rest? = some (stmt :: rest)) : a = .step a.actor ∨
      stmt = .openOrReturn ∧ a = .openFails a.actor ∨
      stmt = .spawn ∧ ∃ new, a = .spawn a.actor new := by
  cases a with
  | step t => exact .inl rfl
  | arrive t =>
    simp only [WorkerClass.step] at hstep
    split_ifs at hstep with hpc
    change (p.threads t).rest? = _ at ht
    rw [hpc] at ht
    exact absurd ht (by simp [WorkerPc.rest?])
  | depart t =>
    simp only [WorkerClass.step] at hstep
    split_ifs at hstep with hpc
    change (p.threads t).rest? = _ at ht
    rw [hpc] at ht
    exact absurd ht (by simp [WorkerPc.rest?])
  | call t c =>
    simp only [WorkerClass.step] at hstep
    split_ifs at hstep with hidle
    exact absurd (Option.some.inj (ht.symm.trans hidle)) (by simp)
  | openFails t =>
    simp only [WorkerClass.step] at hstep
    split at hstep
    next rest' hr =>
      exact .inr (.inl ⟨(List.cons.inj (Option.some.inj (ht.symm.trans hr))).1, rfl⟩)
    next => cases hstep
  | spawn t new =>
    simp only [WorkerClass.step] at hstep
    split at hstep
    next rest' hr =>
      exact .inr (.inr ⟨(List.cons.inj (Option.some.inj (ht.symm.trans hr))).1, new, rfl⟩)
    next => cases hstep
  | fault t =>
    obtain ⟨flag, -, hif⟩ := Option.bind_eq_some_iff.mp hstep
    split_ifs at hif with hpc
    change (p.threads t).rest? = _ at ht
    rw [hpc] at ht
    exact absurd ht (by simp [WorkerPc.rest?])

/-- **The steps that change the handle.** -/
theorem handle_step (hstep : W.step p a = some q) : q.handle = p.handle ∨ q.handle = none ∨
    ∃ t new rest, a = .spawn t new ∧ (p.threads t).rest? = some (.spawn :: rest) ∧
      q = { (p.setRest t rest).setThread new .publish with handle := some new } := by
  cases a with
  | step t =>
    cases threadStep hstep with
    | ran _ hexec => exact (Workers.handle_exec hexec).imp_right .inl
    | moved _ _ _ _ _ hsame _ => exact .inl hsame.2.2
    | left => exact .inl rfl
  | openFails t =>
    simp only [WorkerClass.step] at hstep
    split at hstep
    next => exact .inl (congrArg (·.handle) (Option.some.inj hstep).symm)
    next => cases hstep
  | spawn t new =>
    simp only [WorkerClass.step] at hstep
    split at hstep
    next rest ht =>
      split_ifs at hstep
      exact .inr (.inr ⟨t, new, rest, rfl, ht, (Option.some.inj hstep).symm⟩)
    next => cases hstep
  | fault t =>
    obtain ⟨flag, -, hif⟩ := Option.bind_eq_some_iff.mp hstep
    split_ifs at hif
    exact .inl (congrArg (·.handle) (Option.some.inj hif).symm)
  | _ =>
    simp only [WorkerClass.step] at hstep
    split_ifs at hstep
    exact .inl (congrArg (·.handle) (Option.some.inj hstep).symm)

/-- While a thread has the mutex no other creates a worker. -/
theorem Custody.handle_none (hC : W.Custody p) (hstep : W.step p a = some q)
    (hu : (p.threads u).holds = true) (hau : a.actor ≠ u) (hnone : p.handle = none) :
    q.handle = none := by
  rcases handle_step hstep with hsame | hgone | ⟨t, new, rest, rfl, ht, -⟩
  · rw [hsame, hnone]
  · exact hgone
  · have hfits := (Stmt.disciplined_cons.mp (hC.code t _ ht)).1
    have hheld : Stmt.held rest = true := (Bool.and_eq_true ..|>.mp hfits).1
    have htu : t = u := hC.mutex.unique (by rw [WorkerPc.holds_of_rest? ht]; exact hheld) hu
    exact absurd htu hau

/-- The creation of a worker sets no flag. -/
theorem allSet_spawn {new : WorkerId} {flags : List F}
    (hstep : W.step p (.spawn t new : WorkerLabel C) = some q) : q.allSet flags = p.allSet flags := by
  simp only [WorkerClass.step] at hstep
  split at hstep
  next =>
    split_ifs at hstep
    exact congrArg (·.allSet flags) (Option.some.inj hstep).symm
  next => cases hstep

/-! ## The published id -/

/-- **The published id is that of the worker**, which is past no test of it. -/
structure Identity (p : Workers F) : Prop where
  workerId : Owns p.workerId p.threads WorkerPc.published
  caller : ∀ t rest, (p.threads t).rest? = some rest → (p.threads t).isWorker = true →
    Stmt.needsCaller rest = false

omit [DecidableEq F] in
theorem isWorker_iff_phase {pc : WorkerPc F} : pc.isWorker = true ↔ phase pc ≠ .outside := by
  cases pc <;> simp [WorkerPc.isWorker, phase]

/-- A worker that can call was a worker before. -/
theorem isWorker_of_step (hstep : W.step p a = some q) (hr : (q.threads u).rest? = some rest)
    (hq : (q.threads u).isWorker = true) : (p.threads u).isWorker = true := by
  rw [isWorker_iff_phase] at hq ⊢
  have hphase := phase_step (u := u) hstep
  generalize hnow : phase (q.threads u) = now at hq hphase
  cases hphase with
  | same => exact hq
  | created _ habsent =>
    -- a new worker is at no place where it could call
    cases hpc : q.threads u <;> rw [hpc] at hr hnow <;> simp [phase, WorkerPc.rest?] at hr hnow
  | turned hpc => simp [hpc, phase]
  | tested hpc => simp [hpc, phase]
  | again _ hpc => simp [hpc, phase]
  | broke _ hpc => simp [hpc, phase]
  | drained _ hpc => simp [hpc, phase]
  | reaped => exact absurd rfl hq

/-- A worker goes on to a place behind no test of its id. -/
theorem Identity.needsCaller_exec (h : Identity p) {stmt : Stmt F}
    (ht : (p.threads t).rest? = some (stmt :: rest)) (hw : (p.threads t).isWorker = true)
    (hcode : Stmt.disciplined W.loop (stmt :: rest) = true) {r : Workers F × List (Stmt F)}
    (hexec : p.exec t stmt rest = some r) : Stmt.needsCaller r.2 = false := by
  have hneeds := h.caller t _ ht hw
  cases stmt with
  | returnOnWorker =>
    obtain ⟨⟩ := hexec
    have hself := (h.workerId t).mp (WorkerPc.published_of_rest? hw ht)
    dsimp only
    rw [if_pos hself]
    exact Stmt.needsCaller_unwind
  | join => exact absurd hneeds (by simp [Stmt.needsCaller])
  | ifJoinable n =>
    obtain ⟨⟩ := hexec
    have hfits := (Stmt.disciplined_cons.mp hcode).1
    simp only [Stmt.fits, Bool.and_eq_true, Bool.or_eq_true, Bool.not_eq_true'] at hfits
    dsimp only
    split_ifs
    · exact hneeds
    · have hrest : Stmt.needsCaller rest = false := hneeds
      exact hfits.1.2.resolve_left (by simp [hrest])
  | returnIf flags =>
    have hnext := Workers.next_exec hexec
    generalize r.2 = rest' at hnext
    cases hnext with
    | goOn => exact hneeds
    | back => exact Stmt.needsCaller_unwind
    | further => exact hneeds
  | _ =>
    have hnext := Workers.next_exec hexec
    generalize r.2 = rest' at hnext
    cases hnext with
    | goOn => exact hneeds
    | back => exact Stmt.needsCaller_unwind

/-- The published id is cleared when there is no worker: nothing changes. -/
theorem Identity.workerId_none (h : Identity p) (hC : W.Custody p) (hhandle : p.handle = none) :
    p.workerId = none := by
  cases hid : p.workerId with
  | none => rfl
  | some w =>
    have hw := WorkerPc.isWorker_of_published ((h.workerId w).mpr hid)
    rw [hC.handle w, hhandle] at hw
    cases hw

/-- Before the worker publishes its id no other thread has published one. -/
theorem Identity.workerId_publish (h : Identity p) (hC : W.Custody p)
    (hpc : p.threads t = .publish) : p.workerId = none := by
  cases hid : p.workerId with
  | none => rfl
  | some w =>
    have hw : (p.threads w).published = true := (h.workerId w).mpr hid
    have hsame : w = t := hC.handle.unique (WorkerPc.isWorker_of_published hw) (by rw [hpc]; rfl)
    rw [hsame, hpc] at hw
    exact absurd hw (by simp [WorkerPc.published])

/-- **Every step leaves the published id with the worker.** -/
theorem Identity.workerId_step (h : Identity p) (hC : W.Custody p) (hstep : W.step p a = some q) :
    Owns q.workerId q.threads WorkerPc.published := by
  cases a with
  | arrive t =>
    simp only [WorkerClass.step] at hstep
    split_ifs at hstep with hpc
    obtain ⟨⟩ := hstep
    exact h.workerId.update (by rw [hpc]; rfl)
  | depart t =>
    simp only [WorkerClass.step] at hstep
    split_ifs at hstep with hpc
    obtain ⟨⟩ := hstep
    exact h.workerId.update (by rw [hpc]; rfl)
  | call t c =>
    simp only [WorkerClass.step] at hstep
    split_ifs at hstep
    obtain ⟨⟩ := hstep
    exact h.workerId.update WorkerPc.published_withRest
  | step t =>
    cases threadStep hstep with
    | ran ht hexec =>
      have hid := h.workerId.congr (fun u => Workers.published_exec (u := u) hexec)
      rcases Workers.workerId_exec hexec with hsame | ⟨rfl, hnone⟩
      · rwa [← hsame] at hid
      · have hgone : p.workerId = none := h.workerId_none hC (hC.noWorker t _ ht rfl)
        rwa [hgone, ← hnone] at hid
    | left hpc => exact h.workerId.update (by rw [hpc]; rfl)
    | moved _ _ _ _ hid _ hthreads =>
      rw [hthreads]
      refine h.workerId.step ?_
      cases hid with
      | keeps hpub hid =>
        rw [hpub, hid]
        exact .keep
      | publishes hpc hpub hid =>
        rw [h.workerId_publish hC hpc, hid, hpub]
        exact .lock
      | clears hpc hpub hid =>
        rw [hpc, hid, hpub]
        exact .unlock
  | openFails t =>
    simp only [WorkerClass.step] at hstep
    split at hstep
    next =>
      obtain ⟨⟩ := hstep
      exact h.workerId.update WorkerPc.published_withRest
    next => cases hstep
  | spawn t new =>
    simp only [WorkerClass.step] at hstep
    split at hstep
    next rest ht =>
      split_ifs at hstep with hif
      obtain ⟨⟩ := hstep
      have hgo : Owns p.workerId (p.setRest t rest).threads WorkerPc.published :=
        h.workerId.update WorkerPc.published_withRest
      refine hgo.update ?_
      by_cases hnt : new = t
      · subst hnt
        rw [hif.2] at ht
        exact absurd ht (by simp [WorkerPc.rest?])
      · have hfresh : (p.setRest t rest).threads new = .absent :=
          (Function.update_of_ne hnt ..).trans hif.2
        rw [hfresh]
        rfl
    next => cases hstep
  | fault t =>
    obtain ⟨flag, -, hif⟩ := Option.bind_eq_some_iff.mp hstep
    split_ifs at hif with hpc
    obtain ⟨⟩ := hif
    exact h.workerId.update (by rw [hpc]; rfl)

/-- **Every step keeps the identity of the worker.** -/
theorem Identity.step (hW : W.Disciplined) (h : Identity p) (hC : W.Custody p)
    (hstep : W.step p a = some q) : Identity q := by
  refine ⟨h.workerId_step hC hstep, fun u rest hr hw => ?_⟩
  have hwas : (p.threads u).isWorker = true := isWorker_of_step hstep hr hw
  cases rest_step hstep hr with
  | kept hold => exact h.caller u _ hold hwas
  | empty => rfl
  | called => exact (hW _).needsCaller
  | ran ht _ hexec => exact h.needsCaller_exec ht hwas (hC.code u _ ht) hexec
  | opened => exact Stmt.needsCaller_unwind
  | spawned ht =>
    have hneeds := h.caller u _ ht hwas
    exact hneeds

omit [DecidableEq F] in
theorem identity_init : Identity ({} : Workers F) where
  workerId _ := ⟨fun h => absurd h (by simp [WorkerPc.published]), fun h => absurd h (by simp)⟩
  caller _ _ h := absurd h (by simp [WorkerPc.rest?])

/-! ## Waits -/

variable (W) in
/-- **The code sets these flags, and waits for them, with the mutex only.** -/
def Locked (flags : List F) : Prop :=
  ∀ c, Stmt.disciplined flags (W.code c) = true ∧ Stmt.locked flags (W.code c) = true ∧
    Stmt.awaits flags (W.code c) = false

/-- **Nobody waits while these flags are all set.** -/
structure Waits (flags : List F) (p : Workers F) : Prop where
  disciplined : ∀ t rest, (p.threads t).rest? = some rest → Stmt.disciplined flags rest = true
  locked : ∀ t rest, (p.threads t).rest? = some rest → Stmt.locked flags rest = true
  ends : ∀ t rest, (p.threads t).rest? = some rest → Stmt.awaits flags rest = true →
    p.allSet flags = false

/-- A step of another thread does not set the flags that a thread waits for. -/
theorem Waits.allSet_step {flags : List F} (h : Waits flags p) (hC : W.Custody p)
    (hstep : W.step p a = some q) (hu : (p.threads u).rest? = some rest)
    (hheld : Stmt.held rest = true) (hau : a.actor ≠ u) (hp : p.allSet flags = false) :
    q.allSet flags = false := by
  have hholds : (p.threads u).holds = true := by rw [WorkerPc.holds_of_rest? hu, hheld]
  -- who sets a flag has the mutex, and is not `u`
  have hnot {t : WorkerId} {stmt : Stmt F} {r : List (Stmt F)}
      (ht : (p.threads t).rest? = some (stmt :: r)) (htu : t ≠ u)
      (hsets : Stmt.sets flags stmt = true) : False := by
    have hheld' := Stmt.held_of_sets (h.locked t _ ht) hsets
    exact htu (hC.mutex.unique (by rw [WorkerPc.holds_of_rest? ht, hheld']) hholds)
  obtain ⟨flag, hmem, hclear⟩ := List.all_eq_false.mp hp
  refine List.all_eq_false.mpr ⟨flag, hmem, fun hset => ?_⟩
  rcases flags_step hstep flag with hsame | hwrites
  · exact hclear (hsame ▸ hset)
  · rw [hset] at hwrites
    cases hwrites with
    | stored ht => exact hnot ht hau (by simp [Stmt.sets, hmem])
    | exchanged ht => exact hnot ht hau (by simp [Stmt.sets, hmem])

/-- **Every step leaves who waits with a cleared flag.** -/
theorem Waits.step {flags : List F} (hW : W.Locked flags) (h : Waits flags p) (hC : W.Custody p)
    (hstep : W.step p a = some q) : Waits flags q where
  disciplined u rest' hr := by
    cases rest_step hstep hr with
    | kept hold => exact h.disciplined u _ hold
    | empty => rfl
    | called => exact (hW _).1
    | ran ht _ hexec => exact (Workers.next_exec hexec).disciplined (h.disciplined u _ ht)
    | opened => exact Stmt.disciplined_unwind
    | spawned ht => exact (Stmt.disciplined_cons.mp (h.disciplined u _ ht)).2
  locked u rest' hr := by
    cases rest_step hstep hr with
    | kept hold => exact h.locked u _ hold
    | empty => rfl
    | called => exact (hW _).2.1
    | ran ht _ hexec => exact (Workers.next_exec hexec).locked (h.locked u _ ht)
    | opened => exact Stmt.locked_unwind
    | spawned ht => exact (Stmt.locked_cons.mp (h.locked u _ ht)).2
  ends u rest' hr ha := by
    cases rest_step hstep hr with
    | kept hold hau =>
      have hheld := Stmt.held_of_awaits (h.locked u _ hold) ha
      exact h.allSet_step hC hstep hold hheld hau (h.ends u _ hold ha)
    | empty => exact absurd ha (by simp [Stmt.awaits])
    | called =>
      rw [(hW _).2.2] at ha
      exact absurd ha (by simp)
    | ran ht hact hexec =>
      obtain rfl := hact
      have hfits := (Stmt.disciplined_cons.mp (h.disciplined u _ ht)).1
      rw [step_ran ht hexec hstep]
      exact Workers.awaits_exec hfits (h.ends u _ ht) hexec ha
    | opened => exact absurd ha (by simp)
    | spawned ht hact => exact (allSet_spawn (hact ▸ hstep)).trans (h.ends u _ ht ha)

theorem waits_init {flags : List F} : Waits flags ({} : Workers F) where
  disciplined _ _ h := absurd h (by simp [WorkerPc.rest?])
  locked _ _ h := absurd h (by simp [WorkerPc.rest?])
  ends _ _ h := absurd h (by simp [WorkerPc.rest?])

end WorkerClass

end Machinery
