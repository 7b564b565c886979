import AxonVex.Machinery.WorkerSteps

/-!
# Machinery/WorkerCustody — who has the mutex, and whose the handle is

Whoever sets which flag, and whoever waits for whom: in every run of a disciplined class one thread
at most has the mutex, the handle is that of the one worker there is, and a thread that relies on
there being no worker is right (`WorkerClass.Custody`).
-/

namespace Machinery

namespace WorkerPc

variable {F : Type*} {pc : WorkerPc F} {rest rest' : List (Stmt F)}

/-- The thread has the mutex. -/
def holds (pc : WorkerPc F) : Bool := pc.rest?.any Stmt.held

@[simp] theorem isWorker_withRest : (pc.withRest rest).isWorker = pc.isWorker := by
  cases pc <;> rfl

@[simp] theorem published_withRest : (pc.withRest rest).published = pc.published := by
  cases pc <;> rfl

theorem holds_of_rest? (h : pc.rest? = some rest) : pc.holds = Stmt.held rest := by
  simp [holds, h]

theorem holds_withRest (h : pc.rest? = some rest) : (pc.withRest rest').holds = Stmt.held rest' :=
  holds_of_rest? (rest?_withRest h)

/-- At a place where no call is left nothing is held. -/
theorem holds_idle (h : ∀ rest, pc.rest? = some rest → rest = []) : pc.holds = false := by
  rw [holds]
  cases hr : pc.rest? with
  | none => rfl
  | some rest => rw [h rest hr]; rfl

/-- A thread that can call and is not the worker. -/
theorem eq_caller (hw : pc.isWorker = false) (h : pc.rest? = some rest) : pc = .caller rest := by
  cases pc with
  | caller => exact congrArg caller (Option.some.inj h)
  | absent => exact absurd h (by simp [rest?])
  | _ => exact absurd hw (by simp [isWorker])

/-- A worker that can call has published its id. -/
theorem published_of_rest? (hw : pc.isWorker = true) (h : pc.rest? = some rest) :
    pc.published = true := by
  cases pc with
  | caller => exact absurd hw (by simp [isWorker])
  | body => rfl
  | last => rfl
  | _ => exact absurd h (by simp [rest?])

theorem isWorker_of_alive (h : pc.alive = true) : pc.isWorker = true := by
  cases pc <;> first | rfl | exact absurd h (by simp [alive])

end WorkerPc

/-! ## Discipline -/

namespace Stmt

variable {F : Type*} [DecidableEq F] {loop : List F} {rest : List (Stmt F)} {stmt : Stmt F}

theorem disciplined_cons : disciplined loop (stmt :: rest) = true ↔
    fits loop stmt rest = true ∧ disciplined loop rest = true := by
  rw [disciplined, Bool.and_eq_true]

theorem disciplined_drop (h : disciplined loop rest = true) (n : ℕ) :
    disciplined loop (rest.drop n) = true := by
  induction rest generalizing n with
  | nil => simpa using h
  | cons stmt rest ih =>
    cases n with
    | zero => exact h
    | succ n => exact ih (disciplined_cons.mp h).2 n

/-- Only who holds the mutex relies on there being no worker. -/
theorem held_of_needsNoWorker (hd : disciplined loop rest = true)
    (h : needsNoWorker rest = true) : held rest = true := by
  induction rest with
  | nil => exact absurd h (by simp [needsNoWorker])
  | cons stmt rest ih =>
    obtain ⟨hfits, hrest⟩ := disciplined_cons.mp hd
    cases stmt with
    | clearId => exact hfits
    | close => exact hfits
    | spawn => exact (Bool.and_eq_true ..|>.mp hfits).1
    | lock => exact absurd h (by simp [needsNoWorker])
    | unlock => rfl
    | returnIfExchanged => exact absurd h (by simp [needsNoWorker])
    | ifJoinable => exact absurd h (by simp [needsNoWorker])
    | join => exact absurd h (by simp [needsNoWorker])
    | _ => exact ih hrest h

omit [DecidableEq F] in
@[simp] theorem held_unwind : held (unwind rest) = held rest := by
  unfold unwind
  split_ifs with h <;> simp [h, held]

@[simp] theorem disciplined_unwind : disciplined loop (unwind rest) = true := by
  unfold unwind
  split_ifs <;> rfl

omit [DecidableEq F] in
@[simp] theorem needsNoWorker_unwind : needsNoWorker (unwind rest) = false := by
  unfold unwind
  split_ifs <;> rfl

@[simp] theorem awaits_unwind : awaits loop (unwind rest) = false := by
  unfold unwind
  split_ifs <;> rfl

omit [DecidableEq F] in
@[simp] theorem needsCaller_unwind : needsCaller (unwind rest) = false := by
  unfold unwind
  split_ifs <;> rfl

/-- Who waits after a test of flags waits after the statements behind it. -/
theorem awaits_of_returnIf {flags : List F} (h : awaits loop (.returnIf flags :: rest) = true) :
    awaits loop rest = true := by
  rw [awaits] at h
  split_ifs at h
  exact h

/-- Code that may be called: it relies on nothing. -/
structure Callable (loop : List F) (code : List (Stmt F)) : Prop where
  disciplined : disciplined loop code = true
  held : held code = false
  needsNoWorker : needsNoWorker code = false
  awaits : awaits loop code = false
  needsCaller : needsCaller code = false

end Stmt

namespace WorkerClass

variable {F C : Type*} [DecidableEq F] (W : WorkerClass F C)

/-- **A class whose calls may be called.** -/
def Disciplined : Prop := ∀ c, Stmt.Callable W.loop (W.code c)

variable {W} {p q : Workers F} {t : WorkerId} {rest rest' : List (Stmt F)}

/-- A call that has just set a flag of its own, and does not look at the handle, finds no worker. -/
def Unreplaced (p : Workers F) : WorkerLabel C → Prop
  | .step t => ∀ flag rest, (p.threads t).rest? = some (.returnIfExchanged flag :: rest) →
      p.flags flag = false → Stmt.needsNoWorker rest = true → p.handle = none
  | _ => True

variable (W) in
/-- **The custody of the mutex and of the handle.** -/
structure Custody (p : Workers F) : Prop where
  mutex : Owns p.mutex p.threads WorkerPc.holds
  handle : Owns p.handle p.threads WorkerPc.isWorker
  code : ∀ t rest, (p.threads t).rest? = some rest → Stmt.disciplined W.loop rest = true
  noWorker : ∀ t rest, (p.threads t).rest? = some rest → Stmt.needsNoWorker rest = true →
    p.handle = none

/-- **A thread goes on in its call**, and leaves the handle alone. -/
theorem Custody.advance (h : W.Custody p) (ht : (p.threads t).rest? = some rest)
    (hthreads : q.threads = p.threads) (hhandle : q.handle = p.handle)
    (hmutex : MovesLock t p.mutex q.mutex (Stmt.held rest) (Stmt.held rest'))
    (hcode : Stmt.disciplined W.loop rest' = true)
    (hno : Stmt.needsNoWorker rest' = true → p.handle = none) : W.Custody (q.setRest t rest') := by
  have hrest (u : WorkerId) (r : List (Stmt F))
      (hr : ((q.setRest t rest').threads u).rest? = some r) :
      u = t ∧ r = rest' ∨ (p.threads u).rest? = some r := by
    change (Function.update q.threads t _ u).rest? = some r at hr
    by_cases hut : u = t
    · subst hut
      rw [Function.update_self, hthreads, WorkerPc.rest?_withRest ht] at hr
      exact .inl ⟨rfl, (Option.some.inj hr).symm⟩
    · rw [Function.update_of_ne hut, hthreads] at hr
      exact .inr hr
  constructor
  · have hmove : MovesLock t p.mutex q.mutex (p.threads t).holds
        ((q.threads t).withRest rest').holds := by
      rw [WorkerPc.holds_of_rest? ht, hthreads, WorkerPc.holds_withRest ht]
      exact hmutex
    have hstep := h.mutex.step hmove
    rw [← hthreads] at hstep
    exact hstep
  · have hkeep : ((q.threads t).withRest rest').isWorker = (p.threads t).isWorker := by
      rw [WorkerPc.isWorker_withRest, hthreads]
    have hstep := h.handle.update hkeep
    rw [← hthreads, ← hhandle] at hstep
    exact hstep
  · intro u r hr
    rcases hrest u r hr with ⟨-, rfl⟩ | hold
    · exact hcode
    · exact h.code u r hold
  · intro u r hr hn
    refine hhandle.trans ?_
    rcases hrest u r hr with ⟨-, rfl⟩ | hold
    · exact hno hn
    · exact h.noWorker u r hold hn

/-- A call that returns relies on nothing. -/
theorem Custody.back (h : W.Custody p) (ht : (p.threads t).rest? = some rest)
    (hheld : Stmt.held rest = Stmt.held rest') : W.Custody (p.setRest t (Stmt.unwind rest')) := by
  refine h.advance ht rfl rfl ?_ Stmt.disciplined_unwind fun hn => absurd hn (by simp)
  rw [Stmt.held_unwind, hheld]
  exact .keep

/-- A thread goes to a place where no call is left. -/
theorem Custody.move (h : W.Custody p) {pc : WorkerPc F}
    (hq : q.threads = Function.update p.threads t pc) (hmutex : q.mutex = p.mutex)
    (hheld : pc.holds = (p.threads t).holds) (hhandle : q.handle = p.handle)
    (hworker : pc.isWorker = (p.threads t).isWorker) (hrest : ∀ r, pc.rest? = some r → r = []) :
    W.Custody q := by
  have hold (u : WorkerId) (r : List (Stmt F)) (hr : (q.threads u).rest? = some r) :
      r = [] ∨ (p.threads u).rest? = some r := by
    rw [hq] at hr
    by_cases hut : u = t
    · subst hut
      rw [Function.update_self] at hr
      exact .inl (hrest r hr)
    · rw [Function.update_of_ne hut] at hr
      exact .inr hr
  constructor
  · rw [hq, hmutex]
    exact h.mutex.update hheld
  · rw [hq, hhandle]
    exact h.handle.update hworker
  · intro u r hr
    rcases hold u r hr with rfl | hr
    · rfl
    · exact h.code u r hr
  · intro u r hr hn
    rcases hold u r hr with rfl | hr
    · exact absurd hn (by simp [Stmt.needsNoWorker])
    · exact hhandle.trans (h.noWorker u r hr hn)

/-- The worker, which has ended, is joined: its handle and its thread are gone. -/
theorem Custody.reap (h : W.Custody p) {w : WorkerId} (hw : p.threads w = .finished) :
    W.Custody { p.setThread w .absent with handle := none } := by
  have hold (u : WorkerId) (r : List (Stmt F))
      (hr : (Function.update p.threads w .absent u).rest? = some r) :
      (p.threads u).rest? = some r := by
    by_cases huw : u = w
    · subst huw
      rw [Function.update_self] at hr
      exact absurd hr (by simp [WorkerPc.rest?])
    · rwa [Function.update_of_ne huw] at hr
  exact ⟨h.mutex.update (by rw [hw]; rfl), h.handle.unlock (by rw [hw]; rfl) rfl,
    fun u r hr => h.code u r (hold u r hr), fun _ _ _ _ => rfl⟩

theorem Custody.join (h : W.Custody p) (ht : (p.threads t).rest? = some (.join :: rest))
    (hjoin : p.joinHandle = some q) : W.Custody (q.setRest t rest) := by
  obtain ⟨w, hw, hif⟩ := Option.bind_eq_some_iff.mp hjoin
  split_ifs at hif with hfinished
  obtain ⟨⟩ := hif
  have hne : t ≠ w := by
    rintro rfl
    rw [hfinished] at ht
    exact absurd ht (by simp [WorkerPc.rest?])
  have ht' : (Function.update p.threads w .absent t).rest? = some (.join :: rest) := by
    rw [Function.update_of_ne hne]
    exact ht
  exact (h.reap hfinished).advance ht' rfl rfl .keep
    (Stmt.disciplined_cons.mp (h.code t _ ht)).2 fun _ => rfl

/-- **A statement keeps the custody.** -/
theorem Custody.exec (h : W.Custody p) {stmt : Stmt F}
    (ht : (p.threads t).rest? = some (stmt :: rest))
    (hG : Unreplaced p (.step t : WorkerLabel C)) {r : Workers F × List (Stmt F)}
    (hexec : p.exec t stmt rest = some r) : W.Custody (r.1.setRest t r.2) := by
  obtain ⟨hfits, hcode⟩ := Stmt.disciplined_cons.mp (h.code t _ ht)
  have hno := h.noWorker t _ ht
  cases stmt with
  | store flag value =>
    obtain ⟨⟩ := hexec
    exact h.advance ht rfl rfl .keep hcode hno
  | returnIf flags =>
    cases flags with
    | nil =>
      obtain ⟨⟩ := hexec
      exact h.back ht rfl
    | cons flag flags =>
      obtain ⟨⟩ := hexec
      dsimp only
      split_ifs
      · exact h.advance ht rfl rfl .keep (Stmt.disciplined_cons.mpr ⟨rfl, hcode⟩) hno
      · exact h.advance ht rfl rfl .keep hcode hno
  | returnUnless flag =>
    obtain ⟨⟩ := hexec
    dsimp only
    split_ifs
    · exact h.advance ht rfl rfl .keep hcode hno
    · exact h.back ht rfl
  | returnIfExchanged flag =>
    simp only [Workers.exec] at hexec
    split_ifs at hexec with hset
    · obtain ⟨⟩ := hexec
      exact h.back ht rfl
    · obtain ⟨⟩ := hexec
      exact h.advance ht rfl rfl .keep hcode (hG flag rest ht (by simpa using hset))
  | returnOnWorker =>
    obtain ⟨⟩ := hexec
    dsimp only
    split_ifs
    · exact h.back ht rfl
    · exact h.advance ht rfl rfl .keep hcode hno
  | lock =>
    simp only [Workers.exec] at hexec
    split_ifs at hexec with hfree
    obtain ⟨⟩ := hexec
    obtain ⟨hheld, hn⟩ := Bool.and_eq_true ..|>.mp hfits
    refine h.advance ht rfl rfl ?_ hcode fun hn' => ?_
    · rw [hheld, Option.not_isSome_iff_eq_none.mp hfree]
      exact .lock
    · rw [hn'] at hn
      exact absurd hn (by simp)
  | unlock =>
    obtain ⟨⟩ := hexec
    obtain ⟨hheld, hn⟩ := Bool.and_eq_true ..|>.mp hfits
    refine h.advance ht rfl rfl ?_ hcode fun hn' => ?_
    · rw [show Stmt.held rest = false by simpa using hheld]
      exact .unlock
    · rw [hn'] at hn
      exact absurd hn (by simp)
  | ifJoinable n =>
    obtain ⟨⟩ := hexec
    simp only [Stmt.fits, Bool.and_eq_true, Bool.or_eq_true, Bool.not_eq_true'] at hfits
    obtain ⟨⟨⟨⟨hheld, hheld'⟩, hn⟩, -⟩, -⟩ := hfits
    dsimp only
    split_ifs with hsome
    · refine h.advance ht rfl rfl .keep hcode fun hn' => ?_
      rw [hn'] at hn
      exact absurd hn (by simp)
    · refine h.advance ht rfl rfl ?_ (Stmt.disciplined_drop hcode n)
        fun _ => Option.not_isSome_iff_eq_none.mp hsome
      rw [show Stmt.held (.ifJoinable n :: rest) = Stmt.held rest from rfl, hheld, hheld']
      exact .keep
  | join =>
    obtain ⟨q, hq, rfl⟩ := Option.map_eq_some_iff.mp hexec
    exact h.join ht hq
  | clearId =>
    obtain ⟨⟩ := hexec
    exact h.advance ht rfl rfl .keep hcode fun _ => hno rfl
  | close =>
    obtain ⟨⟩ := hexec
    exact h.advance ht rfl rfl .keep hcode fun _ => hno rfl
  | openOrReturn =>
    obtain ⟨⟩ := hexec
    exact h.advance ht rfl rfl .keep hcode hno
  | spawn => exact absurd hexec (by simp [Workers.exec])

/-- A worker is created behind a handle that is not joinable. -/
theorem Custody.spawn (h : W.Custody p) {new : WorkerId}
    (ht : (p.threads t).rest? = some (.spawn :: rest)) (hhandle : p.handle = none)
    (hnew : p.threads new = .absent) :
    W.Custody { (p.setRest t rest).setThread new .publish with handle := some new } := by
  obtain ⟨hfits, hcode⟩ := Stmt.disciplined_cons.mp (h.code t _ ht)
  obtain ⟨hheld, hno⟩ := Bool.and_eq_true ..|>.mp hfits
  have hne : new ≠ t := by
    rintro rfl
    rw [hnew] at ht
    exact absurd ht (by simp [WorkerPc.rest?])
  have hgo : W.Custody (p.setRest t rest) := by
    refine h.advance ht rfl rfl .keep hcode fun hn => ?_
    rw [hn] at hno
    exact absurd hno (by simp)
  have hfresh : (p.setRest t rest).threads new = .absent := by
    rw [← hnew]
    exact Function.update_of_ne hne ..
  have hgone : ((p.setRest t rest).threads t).rest? = some rest := by
    change (Function.update p.threads t _ t).rest? = some rest
    rw [Function.update_self]
    exact WorkerPc.rest?_withRest ht
  -- whoever relies on there being no worker has the mutex, which is the creator's
  have hnobody (u : WorkerId) (r : List (Stmt F))
      (hr : ((p.setRest t rest).threads u).rest? = some r) : Stmt.needsNoWorker r = false := by
    rw [Bool.eq_false_iff]
    intro hn
    have hu : ((p.setRest t rest).threads u).holds = true := by
      rw [WorkerPc.holds_of_rest? hr]
      exact Stmt.held_of_needsNoWorker (hgo.code u r hr) hn
    have hut : u = t := hgo.mutex.unique hu (by rw [WorkerPc.holds_of_rest? hgone, hheld])
    rw [hut, hgone] at hr
    obtain ⟨⟩ := hr
    rw [hn] at hno
    exact absurd hno (by simp)
  have hold (u : WorkerId) (r : List (Stmt F))
      (hr : (Function.update (p.setRest t rest).threads new .publish u).rest? = some r) :
      ((p.setRest t rest).threads u).rest? = some r := by
    by_cases hun : u = new
    · subst hun
      rw [Function.update_self] at hr
      exact absurd hr (by simp [WorkerPc.rest?])
    · rwa [Function.update_of_ne hun] at hr
  refine ⟨hgo.mutex.update (by rw [hfresh]; rfl), Owns.lock ?_ rfl,
    fun u r hr => hgo.code u r (hold u r hr), fun u r hr hn => ?_⟩
  · rw [← hhandle]
    exact hgo.handle
  · rw [hnobody u r (hold u r hr)] at hn
    exact absurd hn (by simp)

/-- **Every step keeps the custody.** -/
theorem Custody.step (hW : W.Disciplined) (h : W.Custody p) {a : WorkerLabel C}
    (hG : Unreplaced p a) (hstep : W.step p a = some q) : W.Custody q := by
  cases a with
  | arrive t =>
    simp only [WorkerClass.step] at hstep
    split_ifs at hstep with hpc
    obtain ⟨⟩ := hstep
    exact h.move rfl rfl (by rw [hpc]; rfl) rfl (by rw [hpc]; rfl)
      fun r hr => (Option.some.inj hr).symm
  | depart t =>
    simp only [WorkerClass.step] at hstep
    split_ifs at hstep with hpc
    obtain ⟨⟩ := hstep
    exact h.move rfl rfl (by rw [hpc]; rfl) rfl (by rw [hpc]; rfl)
      fun r hr => absurd hr (by simp [WorkerPc.rest?])
  | call t c =>
    simp only [WorkerClass.step] at hstep
    split_ifs at hstep with ht
    obtain ⟨⟩ := hstep
    have hcode := hW c
    refine h.advance ht rfl rfl ?_ hcode.disciplined fun hn => ?_
    · rw [show Stmt.held ([] : List (Stmt F)) = false from rfl, hcode.held]
      exact .keep
    · rw [hcode.needsNoWorker] at hn
      exact absurd hn (by simp)
  | step t =>
    cases threadStep hstep with
    | ran ht hexec => exact h.exec ht hG hexec
    | left hpc =>
      exact h.move rfl rfl (by rw [hpc]; rfl) rfl (by rw [hpc]; rfl)
        fun r hr => absurd hr (by simp [WorkerPc.rest?])
    | moved hworker hrest hrest' _ _ hsame hthreads =>
      refine h.move hthreads hsame.2.1 ?_ hsame.2.2 (hworker.2.trans hworker.1.symm) hrest'
      rw [WorkerPc.holds_idle hrest, WorkerPc.holds_idle hrest']
  | openFails t =>
    simp only [WorkerClass.step] at hstep
    split at hstep
    next rest ht =>
      obtain ⟨⟩ := hstep
      exact h.back ht rfl
    next => cases hstep
  | spawn t new =>
    simp only [WorkerClass.step] at hstep
    split at hstep
    next rest ht =>
      split_ifs at hstep with hif
      obtain ⟨⟩ := hstep
      exact h.spawn ht hif.1 hif.2
    next => cases hstep
  | fault t =>
    obtain ⟨flag, -, hif⟩ := Option.bind_eq_some_iff.mp hstep
    split_ifs at hif with hpc
    obtain ⟨⟩ := hif
    exact h.move rfl rfl (by rw [hpc]; rfl) rfl (by rw [hpc]; rfl)
      fun r hr => (Option.some.inj hr).symm

/-- Before anything is called nobody has the mutex, and there is no worker. -/
theorem custody_init : W.Custody ({} : Workers F) where
  mutex _ := ⟨fun h => absurd h (by simp [WorkerPc.holds, WorkerPc.rest?]), fun h => absurd h (by simp)⟩
  handle _ := ⟨fun h => absurd h (by simp [WorkerPc.isWorker]), fun h => absurd h (by simp)⟩
  code _ _ h := absurd h (by simp [WorkerPc.rest?])
  noWorker _ _ h := absurd h (by simp [WorkerPc.rest?])

end WorkerClass

end Machinery
