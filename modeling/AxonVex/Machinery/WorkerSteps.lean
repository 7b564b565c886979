import AxonVex.Machinery.Worker
import Mathlib.Data.List.Infix

/-!
# Machinery/WorkerSteps — what a step of a class with a worker writes

`flags_step` lists the steps that write a flag, and `rest_step` says where the rest of a call comes
from: each is all that a property of the flags, or of the places of the threads, needs of a step.
-/

namespace Machinery

variable {F C : Type*}

theorem WorkerPc.isWorker_of_published {pc : WorkerPc F} (h : pc.published = true) :
    pc.isWorker = true := by
  cases pc <;> first | rfl | exact absurd h (by simp [published])

theorem WorkerPc.rest?_withRest {pc : WorkerPc F} {rest rest' : List (Stmt F)}
    (h : pc.rest? = some rest) : (pc.withRest rest').rest? = some rest' := by
  cases pc <;> first | rfl | exact absurd h (by simp [rest?])

/-- The thread that makes a step. -/
def WorkerLabel.actor : WorkerLabel C → WorkerId
  | arrive t => t
  | depart t => t
  | call t _ => t
  | step t => t
  | openFails t => t
  | spawn t _ => t
  | fault t => t

variable [DecidableEq F]

/-- What may be left after a statement with these behind it. -/
inductive Stmt.Next : Stmt F → List (Stmt F) → List (Stmt F) → Prop
  | goOn {stmt : Stmt F} {rest : List (Stmt F)} : Next stmt rest rest
  | back {stmt : Stmt F} {rest : List (Stmt F)} : Next stmt rest (unwind rest)
  | skip {n : ℕ} {rest : List (Stmt F)} : Next (ifJoinable n) rest (rest.drop n)
  | further {flag : F} {flags : List F} {rest : List (Stmt F)} :
      Next (returnIf (flag :: flags)) rest (returnIf flags :: rest)

/-- What may be left after the first of these statements. -/
def Stmt.nexts : List (Stmt F) → List (List (Stmt F))
  | [] => []
  | ifJoinable n :: rest => [rest, unwind rest, rest.drop n]
  | returnIf (_ :: flags) :: rest => [rest, unwind rest, returnIf flags :: rest]
  | _ :: rest => [rest, unwind rest]

omit [DecidableEq F] in
theorem Stmt.Next.mem_nexts {stmt : Stmt F} {rest rest' : List (Stmt F)}
    (h : Stmt.Next stmt rest rest') : rest' ∈ Stmt.nexts (stmt :: rest) := by
  cases h with
  | goOn => unfold nexts; split <;> simp_all
  | back => unfold nexts; split <;> simp_all
  | skip => simp [nexts]
  | further => simp [nexts]

namespace Workers

variable {p : Workers F} {t : WorkerId} {stmt : Stmt F} {rest : List (Stmt F)}
  {r : Workers F × List (Stmt F)}

theorem next_exec (h : p.exec t stmt rest = some r) : Stmt.Next stmt rest r.2 := by
  cases stmt with
  | returnIf flags =>
    cases flags with
    | nil => exact Option.some.inj h ▸ .back
    | cons flag flags =>
      obtain ⟨⟩ := h
      dsimp only
      split_ifs
      · exact .further
      · exact .goOn
  | returnUnless flag =>
    obtain ⟨⟩ := h
    dsimp only
    split_ifs
    · exact .goOn
    · exact .back
  | returnIfExchanged flag =>
    simp only [exec] at h
    split_ifs at h
    · exact Option.some.inj h ▸ .back
    · exact Option.some.inj h ▸ .goOn
  | returnOnWorker =>
    obtain ⟨⟩ := h
    dsimp only
    split_ifs
    · exact .back
    · exact .goOn
  | lock =>
    simp only [exec] at h
    split_ifs at h
    exact Option.some.inj h ▸ .goOn
  | ifJoinable n =>
    obtain ⟨⟩ := h
    dsimp only
    split_ifs
    · exact .goOn
    · exact .skip
  | join =>
    obtain ⟨q, -, rfl⟩ := Option.map_eq_some_iff.mp h
    exact .goOn
  | spawn => exact absurd h (by simp [exec])
  | _ => exact Option.some.inj h ▸ .goOn

/-- A flag is written by a store and by an exchange. -/
theorem flags_exec (h : p.exec t stmt rest = some r) (flag : F) :
    r.1.flags flag = p.flags flag ∨ (∃ value, stmt = .store flag value ∧ r.1.flags flag = value) ∨
      stmt = .returnIfExchanged flag ∧ r.1.flags flag = true := by
  cases stmt with
  | store other value =>
    obtain ⟨⟩ := h
    by_cases hf : flag = other
    · subst hf
      exact .inr (.inl ⟨value, rfl, Function.update_self ..⟩)
    · exact .inl (Function.update_of_ne hf ..)
  | returnIfExchanged other =>
    simp only [exec] at h
    split_ifs at h
    · exact .inl (congrArg (fun q => q.1.flags flag) (Option.some.inj h).symm)
    · obtain ⟨⟩ := h
      by_cases hf : flag = other
      · subst hf
        exact .inr (.inr ⟨rfl, Function.update_self ..⟩)
      · exact .inl (Function.update_of_ne hf ..)
  | returnIf flags => cases flags <;> exact .inl (congrArg (·.1.flags flag) (Option.some.inj h).symm)
  | lock =>
    simp only [exec] at h
    split_ifs at h
    exact .inl (congrArg (·.1.flags flag) (Option.some.inj h).symm)
  | join =>
    obtain ⟨q, hq, rfl⟩ := Option.map_eq_some_iff.mp h
    obtain ⟨w, -, hif⟩ := Option.bind_eq_some_iff.mp hq
    split_ifs at hif
    exact .inl (congrArg (·.flags flag) (Option.some.inj hif).symm)
  | spawn => exact absurd h (by simp [exec])
  | _ => exact .inl (congrArg (·.1.flags flag) (Option.some.inj h).symm)

/-- The others stay where they are, but for a worker that has ended and is joined. -/
theorem threads_exec (h : p.exec t stmt rest = some r) (u : WorkerId) :
    r.1.threads u = p.threads u ∨ p.threads u = .finished ∧ r.1.threads u = .absent := by
  cases stmt with
  | join =>
    obtain ⟨q, hq, rfl⟩ := Option.map_eq_some_iff.mp h
    obtain ⟨w, -, hif⟩ := Option.bind_eq_some_iff.mp hq
    split_ifs at hif with hw
    obtain ⟨⟩ := hif
    by_cases huw : u = w
    · subst huw
      exact .inr ⟨hw, Function.update_self ..⟩
    · exact .inl (Function.update_of_ne huw ..)
  | returnIfExchanged flag =>
    simp only [exec] at h
    split_ifs at h <;> exact .inl (congrArg (·.1.threads u) (Option.some.inj h).symm)
  | returnIf flags =>
    cases flags <;> exact .inl (congrArg (·.1.threads u) (Option.some.inj h).symm)
  | lock =>
    simp only [exec] at h
    split_ifs at h
    exact .inl (congrArg (·.1.threads u) (Option.some.inj h).symm)
  | spawn => exact absurd h (by simp [exec])
  | _ => exact .inl (congrArg (·.1.threads u) (Option.some.inj h).symm)

/-- A statement leaves the handle alone, or joins it. -/
theorem handle_exec (h : p.exec t stmt rest = some r) :
    r.1.handle = p.handle ∨ r.1.handle = none := by
  cases stmt with
  | join =>
    obtain ⟨q, hq, rfl⟩ := Option.map_eq_some_iff.mp h
    obtain ⟨w, -, hif⟩ := Option.bind_eq_some_iff.mp hq
    split_ifs at hif
    exact .inr (congrArg (·.handle) (Option.some.inj hif).symm)
  | returnIfExchanged flag =>
    simp only [exec] at h
    split_ifs at h <;> exact .inl (congrArg (·.1.handle) (Option.some.inj h).symm)
  | returnIf flags => cases flags <;> exact .inl (congrArg (·.1.handle) (Option.some.inj h).symm)
  | lock =>
    simp only [exec] at h
    split_ifs at h
    exact .inl (congrArg (·.1.handle) (Option.some.inj h).symm)
  | spawn => exact absurd h (by simp [exec])
  | _ => exact .inl (congrArg (·.1.handle) (Option.some.inj h).symm)

end Workers

namespace WorkerClass

variable {W : WorkerClass F C} {p q : Workers F} {a : WorkerLabel C} {t u : WorkerId}
  {rest : List (Stmt F)}

/-- **Where the rest of the call** of the thread `u` comes from, after a step. -/
inductive RestFrom (W : WorkerClass F C) (p : Workers F) (a : WorkerLabel C) (u : WorkerId) :
    List (Stmt F) → Prop
  | kept {rest : List (Stmt F)} : (p.threads u).rest? = some rest → a.actor ≠ u →
      RestFrom W p a u rest
  | empty : RestFrom W p a u []
  | called {c : C} : a = .call u c → RestFrom W p a u (W.code c)
  | ran {stmt : Stmt F} {rest : List (Stmt F)} {r : Workers F × List (Stmt F)} :
      (p.threads u).rest? = some (stmt :: rest) → a = .step u → p.exec u stmt rest = some r →
      RestFrom W p a u r.2
  | opened {rest : List (Stmt F)} : (p.threads u).rest? = some (.openOrReturn :: rest) →
      a = .openFails u → RestFrom W p a u (Stmt.unwind rest)
  | spawned {rest : List (Stmt F)} {new : WorkerId} :
      (p.threads u).rest? = some (.spawn :: rest) → a = .spawn u new → RestFrom W p a u rest

/-- What a move of the worker `t` to the place `pc` does to the published id. -/
inductive MovesId (p : Workers F) (t : WorkerId) (pc : WorkerPc F) (q : Workers F) : Prop
  | keeps : pc.published = (p.threads t).published → q.workerId = p.workerId → MovesId p t pc q
  | publishes : p.threads t = .publish → pc.published = true → q.workerId = some t →
      MovesId p t pc q
  | clears : p.threads t = .clear → pc.published = false → q.workerId = none → MovesId p t pc q

/-- **One step of a thread**: a statement of a call, or a move of the worker. -/
inductive ThreadStep (W : WorkerClass F C) (p : Workers F) (t : WorkerId) : Workers F → Prop
  | ran {stmt : Stmt F} {rest : List (Stmt F)} {r : Workers F × List (Stmt F)} :
      (p.threads t).rest? = some (stmt :: rest) → p.exec t stmt rest = some r →
      ThreadStep W p t (r.1.setRest t r.2)
  | moved {pc : WorkerPc F} {q : Workers F} :
      ((p.threads t).isWorker = true ∧ pc.isWorker = true) →
      (∀ rest, (p.threads t).rest? = some rest → rest = []) →
      (∀ rest, pc.rest? = some rest → rest = []) →
      (∀ flags, pc = .leave flags → flags = W.exit) → MovesId p t pc q →
      (q.flags = p.flags ∧ q.mutex = p.mutex ∧ q.handle = p.handle) →
      q.threads = Function.update p.threads t pc → ThreadStep W p t q
  | left {flag : F} {flags : List F} : p.threads t = .leave (flag :: flags) →
      ThreadStep W p t ((p.store flag false).setThread t (.leave flags))

omit [DecidableEq F] in
/-- The loop ends at a place of the worker where no call is left. -/
theorem afterLoop_cases : W.afterLoop = .last [] ∨ W.afterLoop = .leave W.exit := by
  unfold afterLoop
  split_ifs
  · exact .inl rfl
  · exact .inr rfl

/-- A move of a worker whose id stays published. -/
theorem ThreadStep.keeping {pc : WorkerPc F} (hp : (p.threads t).published = true)
    (hrest : ∀ rest, (p.threads t).rest? = some rest → rest = []) (hpc : pc.published = true)
    (hrest' : ∀ rest, pc.rest? = some rest → rest = [])
    (hleave : ∀ flags, pc = .leave flags → flags = W.exit) :
    W.ThreadStep p t (p.setThread t pc) :=
  .moved ⟨WorkerPc.isWorker_of_published hp, WorkerPc.isWorker_of_published hpc⟩ hrest hrest' hleave
    (.keeps (hpc.trans hp.symm) rfl) ⟨rfl, rfl, rfl⟩ rfl

theorem threadStep (h : W.stepThread p t = some q) : W.ThreadStep p t q := by
  cases hpc : p.threads t with
  | absent => simp [stepThread, hpc] at h
  | finished => simp [stepThread, hpc] at h
  | caller rest =>
    cases rest with
    | nil => simp [stepThread, hpc] at h
    | cons stmt rest =>
      simp only [stepThread, hpc] at h
      obtain ⟨r, hr, rfl⟩ := Option.map_eq_some_iff.mp h
      exact .ran (by rw [hpc]; rfl) hr
  | publish =>
    simp only [stepThread, hpc, Option.some.injEq] at h
    subst h
    exact .moved ⟨by rw [hpc]; rfl, rfl⟩ (by simp [hpc, WorkerPc.rest?]) (by simp [WorkerPc.rest?])
      (by simp) (.publishes hpc rfl rfl) ⟨rfl, rfl, rfl⟩ rfl
  | test flags =>
    cases flags with
    | nil =>
      simp only [stepThread, hpc, Option.some.injEq] at h
      subst h
      exact .keeping (by rw [hpc]; rfl) (by simp [hpc, WorkerPc.rest?]) rfl
        (by simp [WorkerPc.rest?]) (by simp)
    | cons flag flags =>
      simp only [stepThread, hpc, Option.some.injEq] at h
      subst h
      refine .keeping (by rw [hpc]; rfl) (by simp [hpc, WorkerPc.rest?]) ?_ ?_ ?_
      all_goals
        split_ifs
        · simp [WorkerPc.published, WorkerPc.rest?]
        · rcases W.afterLoop_cases with hl | hl <;> simp [hl, WorkerPc.published, WorkerPc.rest?]
  | body rest =>
    cases rest with
    | nil =>
      simp only [stepThread, hpc, Option.some.injEq] at h
      subst h
      exact .keeping (by rw [hpc]; rfl) (by simp [hpc, WorkerPc.rest?]) rfl
        (by simp [WorkerPc.rest?]) (by simp)
    | cons stmt rest =>
      simp only [stepThread, hpc] at h
      obtain ⟨r, hr, rfl⟩ := Option.map_eq_some_iff.mp h
      exact .ran (by rw [hpc]; rfl) hr
  | last rest =>
    cases rest with
    | nil =>
      simp only [stepThread, hpc, Option.some.injEq] at h
      subst h
      exact .keeping (by rw [hpc]; rfl) (by simp [hpc, WorkerPc.rest?]) rfl
        (by simp [WorkerPc.rest?]) (by simp)
    | cons stmt rest =>
      simp only [stepThread, hpc] at h
      obtain ⟨r, hr, rfl⟩ := Option.map_eq_some_iff.mp h
      exact .ran (by rw [hpc]; rfl) hr
  | leave flags =>
    cases flags with
    | nil =>
      simp only [stepThread, hpc, Option.some.injEq] at h
      subst h
      exact .keeping (by rw [hpc]; rfl) (by simp [hpc, WorkerPc.rest?]) rfl
        (by simp [WorkerPc.rest?]) (by simp)
    | cons flag flags =>
      simp only [stepThread, hpc, Option.some.injEq] at h
      subst h
      exact .left hpc
  | clear =>
    simp only [stepThread, hpc, Option.some.injEq] at h
    subst h
    exact .moved ⟨by rw [hpc]; rfl, rfl⟩ (by simp [hpc, WorkerPc.rest?]) (by simp [WorkerPc.rest?])
      (by simp) (.clears hpc rfl rfl) ⟨rfl, rfl, rfl⟩ rfl

/-- Only the thread that steps has another rest, and its is one of a statement. -/
theorem restFrom_setRest {r : Workers F × List (Stmt F)} {stmt : Stmt F}
    (ht : (p.threads t).rest? = some (stmt :: rest)) (hexec : p.exec t stmt rest = some r)
    {rest' : List (Stmt F)} (hr : ((r.1.setRest t r.2).threads u).rest? = some rest') :
    W.RestFrom p (.step t) u rest' := by
  by_cases hut : u = t
  · subst hut
    have hplace : (r.1.threads u).rest? = some (stmt :: rest) := by
      rcases Workers.threads_exec hexec u with hsame | ⟨hended, -⟩
      · rw [hsame, ht]
      · rw [hended] at ht
        exact absurd ht (by simp [WorkerPc.rest?])
    have hself : ((r.1.setRest u r.2).threads u).rest? = some r.2 := by
      change (Function.update r.1.threads u _ u).rest? = _
      rw [Function.update_self]
      exact WorkerPc.rest?_withRest hplace
    obtain rfl := Option.some.inj (hself.symm.trans hr)
    exact .ran ht rfl hexec
  · change (Function.update r.1.threads t _ u).rest? = _ at hr
    rw [Function.update_of_ne hut] at hr
    rcases Workers.threads_exec hexec u with hsame | ⟨-, habsent⟩
    · rw [hsame] at hr
      exact .kept hr (Ne.symm hut)
    · rw [habsent] at hr
      exact absurd hr (by simp [WorkerPc.rest?])

/-- A thread is put at a place; the others keep their rests. -/
theorem restFrom_update {pc : WorkerPc F} {rest' : List (Stmt F)}
    (hr : (Function.update p.threads t pc u).rest? = some rest') (hactor : a.actor = t)
    (hself : u = t → pc.rest? = some rest' → W.RestFrom p a u rest') : W.RestFrom p a u rest' := by
  by_cases hut : u = t
  · subst hut
    rw [Function.update_self] at hr
    exact hself rfl hr
  · rw [Function.update_of_ne hut] at hr
    exact .kept hr (hactor ▸ Ne.symm hut)

theorem rest_step (h : W.step p a = some q) {rest' : List (Stmt F)}
    (hr : (q.threads u).rest? = some rest') : W.RestFrom p a u rest' := by
  cases a with
  | step t =>
    cases threadStep h with
    | ran ht hexec => exact restFrom_setRest ht hexec hr
    | moved _ _ hrest' _ _ _ hthreads =>
      rw [hthreads] at hr
      exact restFrom_update hr rfl fun _ hpc => hrest' _ hpc ▸ .empty
    | left _ =>
      exact restFrom_update hr rfl
        fun _ hpc => absurd hpc (by simp [WorkerPc.rest?])
  | arrive t =>
    simp only [step] at h
    split_ifs at h
    obtain ⟨⟩ := h
    exact restFrom_update hr rfl fun _ hpc => Option.some.inj hpc ▸ .empty
  | depart t =>
    simp only [step] at h
    split_ifs at h
    obtain ⟨⟩ := h
    exact restFrom_update hr rfl
        fun _ hpc => absurd hpc (by simp [WorkerPc.rest?])
  | call t c =>
    simp only [step] at h
    split_ifs at h with ht
    obtain ⟨⟩ := h
    refine restFrom_update (t := t) hr rfl fun hut hpc => ?_
    have hcode : some (W.code c) = some rest' := (WorkerPc.rest?_withRest ht).symm.trans hpc
    exact Option.some.inj hcode ▸ .called (hut ▸ rfl)
  | openFails t =>
    simp only [step] at h
    split at h
    next rest ht =>
      obtain ⟨⟩ := h
      refine restFrom_update hr rfl fun hut hpc => ?_
      have hback : some (Stmt.unwind rest) = some rest' :=
        (WorkerPc.rest?_withRest ht).symm.trans hpc
      subst hut
      exact Option.some.inj hback ▸ .opened ht rfl
    next => cases h
  | spawn t new =>
    simp only [step] at h
    split at h
    next rest ht =>
      split_ifs at h
      obtain ⟨⟩ := h
      by_cases hun : u = new
      · subst hun
        change (Function.update (p.setRest t rest).threads u .publish u).rest? = _ at hr
        rw [Function.update_self] at hr
        exact absurd hr (by simp [WorkerPc.rest?])
      · change (Function.update (p.setRest t rest).threads new .publish u).rest? = _ at hr
        rw [Function.update_of_ne hun] at hr
        refine restFrom_update hr rfl fun hut hpc => ?_
        have hgo : some rest = some rest' := (WorkerPc.rest?_withRest ht).symm.trans hpc
        subst hut
        exact Option.some.inj hgo ▸ .spawned ht rfl
    next => cases h
  | fault t =>
    obtain ⟨flag, -, hif⟩ := Option.bind_eq_some_iff.mp h
    split_ifs at hif
    obtain ⟨⟩ := hif
    exact restFrom_update hr rfl fun _ hpc => Option.some.inj hpc ▸ .empty

/-- **The steps that write a flag.** -/
inductive Writes (W : WorkerClass F C) (p : Workers F) (flag : F) : WorkerLabel C → Bool → Prop
  | stored {t : WorkerId} {value : Bool} {rest : List (Stmt F)} :
      (p.threads t).rest? = some (.store flag value :: rest) → Writes W p flag (.step t) value
  | exchanged {t : WorkerId} {rest : List (Stmt F)} :
      (p.threads t).rest? = some (.returnIfExchanged flag :: rest) → Writes W p flag (.step t) true
  | left {t : WorkerId} {flags : List F} :
      p.threads t = .leave (flag :: flags) → Writes W p flag (.step t) false
  | broke {t : WorkerId} : W.fault = some flag → Writes W p flag (.fault t) false

theorem flags_step (h : W.step p a = some q) (flag : F) :
    q.flags flag = p.flags flag ∨ W.Writes p flag a (q.flags flag) := by
  cases a with
  | step t =>
    cases threadStep h with
    | ran ht hexec =>
      rcases Workers.flags_exec hexec flag with hsame | ⟨value, rfl, hv⟩ | ⟨rfl, hv⟩
      · exact .inl hsame
      · exact .inr (hv ▸ .stored ht)
      · exact .inr (hv ▸ .exchanged ht)
    | moved _ _ _ _ _ hsame _ => exact .inl (congrFun hsame.1 flag)
    | @left other flags hpc =>
      by_cases hf : flag = other
      · subst hf
        have hclear : ((p.store flag false).setThread t (.leave flags)).flags flag = false :=
          Function.update_self ..
        rw [hclear]
        exact .inr (.left hpc)
      · exact .inl (Function.update_of_ne hf ..)
  | openFails t =>
    simp only [step] at h
    split at h
    next => exact .inl (congrArg (·.flags flag) (Option.some.inj h).symm)
    next => cases h
  | spawn t new =>
    simp only [step] at h
    split at h
    next =>
      split_ifs at h
      exact .inl (congrArg (·.flags flag) (Option.some.inj h).symm)
    next => cases h
  | fault t =>
    obtain ⟨other, hother, hif⟩ := Option.bind_eq_some_iff.mp h
    split_ifs at hif
    obtain ⟨⟩ := hif
    by_cases hf : flag = other
    · subst hf
      have hclear : ((p.store flag false).setThread t (.last [])).flags flag = false :=
        Function.update_self ..
      rw [hclear]
      exact .inr (.broke hother)
    · exact .inl (Function.update_of_ne hf ..)
  | _ =>
    simp only [step] at h
    split_ifs at h
    exact .inl (congrArg (·.flags flag) (Option.some.inj h).symm)

/-- An exchange leaves its flag set. -/
theorem flags_exchanged {flag : F} (h : W.step p (.step t : WorkerLabel C) = some q)
    (ht : (p.threads t).rest? = some (.returnIfExchanged flag :: rest)) : q.flags flag = true := by
  cases threadStep h with
  | ran ht' hexec =>
    obtain ⟨rfl, rfl⟩ := List.cons.inj (Option.some.inj (ht.symm.trans ht'))
    simp only [Workers.exec] at hexec
    split_ifs at hexec with hset
    · exact Option.some.inj hexec ▸ hset
    · obtain ⟨⟩ := hexec
      exact Function.update_self ..
  | moved _ hrest => exact absurd (hrest _ ht) (by simp)
  | left hpc =>
    rw [hpc] at ht
    exact absurd ht (by simp [WorkerPc.rest?])

/-- The workers on their way out have flags of the class to clear. -/
def LeavesWithExit (W : WorkerClass F C) (p : Workers F) : Prop :=
  ∀ t flags, p.threads t = .leave flags → flags <:+ W.exit

theorem LeavesWithExit.update (hp : W.LeavesWithExit p) {pc : WorkerPc F}
    (hpc : ∀ flags, pc = .leave flags → flags <:+ W.exit)
    (hq : q.threads = Function.update p.threads t pc) : W.LeavesWithExit q := by
  intro u flags hu
  rw [hq] at hu
  by_cases hut : u = t
  · subst hut
    rw [Function.update_self] at hu
    exact hpc _ hu
  · rw [Function.update_of_ne hut] at hu
    exact hp u _ hu

omit [DecidableEq F] in
/-- A thread that goes on in a call is not on its way out. -/
theorem withRest_ne_leave {pc : WorkerPc F} {rest rest' : List (Stmt F)} {flags : List F}
    (h : pc.rest? = some rest) : pc.withRest rest' ≠ .leave flags := by
  intro hl
  have hrest : (pc.withRest rest').rest? = some rest' := WorkerPc.rest?_withRest h
  rw [hl] at hrest
  exact absurd hrest (by simp [WorkerPc.rest?])

theorem LeavesWithExit.step (hp : W.LeavesWithExit p) (h : W.step p a = some q) :
    W.LeavesWithExit q := by
  cases a with
  | step t =>
    cases threadStep h with
    | @ran stmt rest r ht hexec =>
      have hr : W.LeavesWithExit r.1 := by
        intro u flags hu
        rcases Workers.threads_exec hexec u with hsame | ⟨-, habsent⟩
        · exact hp u flags (hsame ▸ hu)
        · rw [habsent] at hu
          cases hu
      refine hr.update (t := t) (fun flags hl => ?_) rfl
      rcases Workers.threads_exec hexec t with hsame | ⟨hended, -⟩
      · rw [hsame] at hl
        exact absurd hl (withRest_ne_leave ht)
      · rw [hended] at ht
        exact absurd ht (by simp [WorkerPc.rest?])
    | moved _ _ _ hleave _ _ hthreads =>
      exact hp.update (fun flags hl => hleave flags hl ▸ List.suffix_rfl) hthreads
    | left hpc =>
      refine hp.update (fun flags hl => ?_) rfl
      obtain rfl := WorkerPc.leave.inj hl
      exact (List.suffix_cons ..).trans (hp t _ hpc)
  | arrive t =>
    simp only [WorkerClass.step] at h
    split_ifs at h
    obtain ⟨⟩ := h
    exact hp.update (fun _ hl => absurd hl (by simp)) rfl
  | depart t =>
    simp only [WorkerClass.step] at h
    split_ifs at h
    obtain ⟨⟩ := h
    exact hp.update (fun _ hl => absurd hl (by simp)) rfl
  | call t c =>
    simp only [WorkerClass.step] at h
    split_ifs at h with ht
    obtain ⟨⟩ := h
    exact hp.update (fun _ hl => absurd hl (withRest_ne_leave ht)) rfl
  | openFails t =>
    simp only [WorkerClass.step] at h
    split at h
    next rest ht =>
      obtain ⟨⟩ := h
      exact hp.update (fun _ hl => absurd hl (withRest_ne_leave ht)) rfl
    next => cases h
  | spawn t new =>
    simp only [WorkerClass.step] at h
    split at h
    next rest ht =>
      split_ifs at h
      obtain ⟨⟩ := h
      have hgo : W.LeavesWithExit (p.setRest t rest) :=
        hp.update (fun _ hl => absurd hl (withRest_ne_leave ht)) rfl
      have hpc : ∀ flags, (.publish : WorkerPc F) = .leave flags → flags <:+ W.exit :=
        fun _ hl => absurd hl (by simp)
      exact hgo.update (t := new) hpc rfl
    next => cases h
  | fault t =>
    obtain ⟨flag, -, hif⟩ := Option.bind_eq_some_iff.mp h
    split_ifs at hif
    obtain ⟨⟩ := hif
    have hpc : ∀ flags, (.last [] : WorkerPc F) = .leave flags → flags <:+ W.exit :=
      fun _ hl => absurd hl (by simp)
    exact hp.update (t := t) hpc rfl

/-! ## Phases of the worker -/

/-- Where the worker is between its creation and its end. -/
inductive Phase
  /-- not a worker -/
  | outside
  /-- before the first turn, or between two -/
  | between
  | turn
  /-- in foreign code after the loop -/
  | draining
  /-- on its way out, or gone -/
  | leaving
  deriving DecidableEq, Repr

/-- The phase of a place. -/
def phase : WorkerPc F → Phase
  | .absent => .outside
  | .caller _ => .outside
  | .publish => .between
  | .test _ => .between
  | .body _ => .turn
  | .last _ => .draining
  | .leave _ => .leaving
  | .clear => .leaving
  | .finished => .leaving

omit [DecidableEq F] in
@[simp] theorem phase_withRest (pc : WorkerPc F) (rest : List (Stmt F)) :
    phase (pc.withRest rest) = phase pc := by
  cases pc <;> rfl

/-- **How the phase of a thread changes.** -/
inductive PhaseStep (W : WorkerClass F C) (p : Workers F) (a : WorkerLabel C) (u : WorkerId) :
    Phase → Prop
  | same : PhaseStep W p a u (phase (p.threads u))
  | created {t : WorkerId} : a = .spawn t u → p.threads u = .absent → PhaseStep W p a u .between
  | turned : p.threads u = .test [] → PhaseStep W p a u .turn
  | tested {flag : F} {flags : List F} : p.threads u = .test (flag :: flags) →
      p.flags flag = false → PhaseStep W p a u (phase W.afterLoop)
  | again : a = .step u → p.threads u = .body [] → PhaseStep W p a u .between
  | broke : a = .fault u → p.threads u = .body [] → PhaseStep W p a u .draining
  | drained : a = .step u → p.threads u = .last [] → PhaseStep W p a u .leaving
  | reaped : p.threads u = .finished → PhaseStep W p a u .outside

theorem PhaseStep.of_eq {ph : Phase} (h : phase (p.threads u) = ph) : W.PhaseStep p a u ph :=
  h ▸ .same

/-- Only one thread is put at another place. -/
theorem phaseStep_update {pc : WorkerPc F} {t : WorkerId}
    (h : u = t → W.PhaseStep p a u (phase pc)) :
    W.PhaseStep p a u (phase (Function.update p.threads t pc u)) := by
  by_cases hut : u = t
  · subst hut
    rw [Function.update_self]
    exact h rfl
  · rw [Function.update_of_ne hut]
    exact .same

/-- A thread goes on in its call. -/
theorem phaseStep_call {stmt : Stmt F} {rest : List (Stmt F)} {r : Workers F × List (Stmt F)}
    (hexec : p.exec t stmt rest = some r) : W.PhaseStep p a u (phase ((r.1.setRest t r.2).threads u)) := by
  have hold : W.PhaseStep p a u (phase (r.1.threads u)) := by
    rcases Workers.threads_exec hexec u with hsame | ⟨hended, habsent⟩
    · rw [hsame]
      exact .same
    · rw [habsent]
      exact .reaped hended
  change W.PhaseStep p a u (phase (Function.update r.1.threads t _ u))
  by_cases hut : u = t
  · subst hut
    rw [Function.update_self, phase_withRest]
    exact hold
  · rw [Function.update_of_ne hut]
    exact hold

theorem phase_step (h : W.step p a = some q) : W.PhaseStep p a u (phase (q.threads u)) := by
  cases a with
  | step t =>
    simp only [step, stepThread] at h
    split at h
    · cases h
    · cases h
    · obtain ⟨r, hr, rfl⟩ := Option.map_eq_some_iff.mp h
      exact phaseStep_call hr
    · next hpc =>
      obtain ⟨⟩ := h
      exact phaseStep_update fun hut => .of_eq (by rw [hut, hpc]; rfl)
    · next hpc =>
      obtain ⟨⟩ := h
      exact phaseStep_update fun hut => .turned (hut ▸ hpc)
    · next flag flags hpc =>
      obtain ⟨⟩ := h
      refine phaseStep_update fun hut => ?_
      split_ifs with hflag
      · exact .of_eq (by rw [hut, hpc]; rfl)
      · exact .tested (hut ▸ hpc) (Bool.eq_false_iff.mpr hflag)
    · next hpc =>
      obtain ⟨⟩ := h
      exact phaseStep_update fun hut => .again (hut ▸ rfl) (hut ▸ hpc)
    · obtain ⟨r, hr, rfl⟩ := Option.map_eq_some_iff.mp h
      exact phaseStep_call hr
    · next hpc =>
      obtain ⟨⟩ := h
      exact phaseStep_update fun hut => .drained (hut ▸ rfl) (hut ▸ hpc)
    · obtain ⟨r, hr, rfl⟩ := Option.map_eq_some_iff.mp h
      exact phaseStep_call hr
    · next hpc =>
      obtain ⟨⟩ := h
      exact phaseStep_update fun hut => .of_eq (by rw [hut, hpc]; rfl)
    · next flag flags hpc =>
      obtain ⟨⟩ := h
      exact phaseStep_update (p := p) fun hut => .of_eq (by rw [hut, hpc]; rfl)
    · next hpc =>
      obtain ⟨⟩ := h
      exact phaseStep_update fun hut => .of_eq (by rw [hut, hpc]; rfl)
    · cases h
  | arrive t =>
    simp only [step] at h
    split_ifs at h with hpc
    obtain ⟨⟩ := h
    exact phaseStep_update fun hut => .of_eq (by rw [hut, hpc]; rfl)
  | depart t =>
    simp only [step] at h
    split_ifs at h with hpc
    obtain ⟨⟩ := h
    exact phaseStep_update fun hut => .of_eq (by rw [hut, hpc]; rfl)
  | call t c =>
    simp only [step] at h
    split_ifs at h with ht
    obtain ⟨⟩ := h
    refine phaseStep_update fun hut => ?_
    rw [phase_withRest, ← hut]
    exact .same
  | openFails t =>
    simp only [step] at h
    split at h
    next rest ht =>
      obtain ⟨⟩ := h
      refine phaseStep_update fun hut => ?_
      rw [phase_withRest, ← hut]
      exact .same
    next => cases h
  | spawn t new =>
    simp only [step] at h
    split at h
    next rest ht =>
      split_ifs at h with hif
      obtain ⟨⟩ := h
      change W.PhaseStep p _ u (phase (Function.update (p.setRest t rest).threads new .publish u))
      by_cases hun : u = new
      · subst hun
        rw [Function.update_self]
        exact .created rfl hif.2
      · rw [Function.update_of_ne hun]
        refine phaseStep_update fun hut => ?_
        rw [phase_withRest, ← hut]
        exact .same
    next => cases h
  | fault t =>
    obtain ⟨flag, -, hif⟩ := Option.bind_eq_some_iff.mp h
    split_ifs at hif with hpc
    obtain ⟨⟩ := hif
    exact phaseStep_update (p := p) fun hut => .broke (hut ▸ rfl) (hut ▸ hpc)

end WorkerClass

end Machinery
