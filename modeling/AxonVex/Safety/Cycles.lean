import AxonVex.Safety.Evaluation

/-!
# Safety/Cycles — what evaluation cycles do, on record

A run carries along what its cycles do: for each cycle the policies it reached and their replies,
the events it published and the handlers that got them, and the emergency stops it called for; and
over the run the violations, the levels reported and the changes of the latch.  `move_of_step` says
once what a step can do to the manager and to this record; the invariants of `Safety/Verdict` are
proved move by move.
-/

namespace AxonVex

open Machinery

namespace Evaluation

/-! ## The record of a run -/

/-- The level of a reply: a policy that throws counts as critical. -/
def Reply.level : Reply → SafetyLevel
  | returns result => result.level
  | throws _ => .critical
  | throwsOther => .critical

@[simp] theorem Reply.level_result (r : Reply) : r.result.level = r.level := by
  cases r <;> rfl

/-- A policy the loop has reached, and its reply if it was enabled. -/
abbrev Visit := Entry × Option Reply

/-- The event of a violation. -/
def violation (v : Visit) : Option SafetyEvent :=
  v.2.bind fun r =>
    if .nominal < r.level then
      some { level := r.level, source := v.1.1, description := r.result.description }
    else none

/-- The reason of an emergency stop. -/
def alarm (v : Visit) : Option String :=
  v.2.bind fun r =>
    if r.level = .emergency then some (v.1.1 ++ ": " ++ r.result.description) else none

/-- The levels reported, and `NOMINAL`. -/
def levels (visits : List Visit) : Set SafetyLevel :=
  {l | l ∈ SafetyLevel.nominal :: visits.filterMap fun v => v.2.map Reply.level}

/-- An event that was published: the handlers registered then, and those called. -/
structure Sent where
  event : SafetyEvent
  registered : List ℕ
  called : List ℕ := []
  deriving DecidableEq, Repr

/-- What a call of `evaluateAll()` found. -/
structure Entered where
  /-- its thread ran the cycle -/
  inside : Bool := false
  /-- what that cycle had reached -/
  reached : List Visit := []
  deriving DecidableEq, Repr

/-- What a cycle has done. -/
structure Report where
  call : Entered := {}
  /-- the policies when the snapshot was taken -/
  policies : List Entry := []
  snapshot : List Entry := []
  reached : List Visit := []
  /-- the event being published -/
  sending : Option Sent := none
  events : List Sent := []
  /-- the reasons of its calls of `triggerEmergencyStop` -/
  trips : List String := []
  deriving DecidableEq, Repr

/-- A call that has run a cycle. -/
structure Finished where
  report : Report
  level : SafetyLevel
  deriving DecidableEq, Repr

/-- A call that has run none. -/
structure Answered where
  call : Entered
  /-- what the cycle had reached when the call returned -/
  reached : List Visit
  level : SafetyLevel
  deriving DecidableEq, Repr

structure History where
  /-- the last cycle begun -/
  current : Report := {}
  /-- the last call of `evaluateAll()` of each thread -/
  entered : ℕ → Entered := fun _ => {}
  finished : List Finished := []
  answered : List Answered := []
  violations : ℕ := 0
  /-- the levels of the replies and of the emergency stops -/
  levels : List SafetyLevel := []
  /-- how often the latch has changed from false to true -/
  engaged : ℕ := 0
  /-- the threads that have set the latch and not counted it yet -/
  tripping : Finset ℕ := ∅

variable (s : Evaluation) (h : History)

/-- A thread executes a step of a call. -/
def History.executed (t : ℕ) : Frame → History
  | .readWorst =>
    let answer : Answered :=
      { call := h.entered t, reached := h.current.reached, level := s.cycleWorst_ }
    { h with answered := h.answered ++ [answer] }
  | .lock => { h with current := { call := h.entered t } }
  | .trip _ .exchange =>
    if s.emergencyStopped_ then h
    else { h with levels := h.levels ++ [.emergency], tripping := insert t h.tripping }
  | .trip _ .stats => { h with tripping := h.tripping.erase t }
  | _ => h

def History.visits (v : Visit) : History :=
  { h with current := { h.current with reached := h.current.reached ++ [v] } }

/-- A cycle begins to publish an event. -/
def History.sends (event : SafetyEvent) (handlers : List ℕ) : History :=
  { h with current := { h.current with sending := some { event, registered := handlers } } }

def History.hands (handler : ℕ) : History :=
  let sending := h.current.sending.map fun e => { e with called := e.called ++ [handler] }
  { h with current := { h.current with sending } }

/-- The event has been published. -/
def History.sent : History :=
  let events := h.current.events ++ h.current.sending.toList
  { h with current := { h.current with sending := none, events } }

def History.alarms (reason : String) : History :=
  { h with current := { h.current with trips := h.current.trips ++ [reason] } }

/-- The cycle steps. -/
def History.cycled (c : Cycle) : History :=
  match c.pc with
  | .next (entry :: _) _ => if s.enabled_ entry.2 then h else h.visits (entry, none)
  | .dispatching _ (.copyHandlers event) => h.sends event s.handlers_
  | .dispatching _ (.notify _ (handler :: _)) => h.hands handler
  | .dispatching _ (.notify _ []) => h.sent
  | .escalate f => if f.result.level = .emergency then h.alarms f.reason else h
  | .unlock worst => { h with finished := h.finished ++ [{ report := h.current, level := worst }] }
  | _ => h

/-- A policy has replied. -/
def History.replied (r : Reply) (c : Cycle) : History :=
  match c.pc with
  | .evaluating entry _ _ =>
    { h.visits (entry, some r) with
      violations := h.violations + if .nominal < r.level then 1 else 0
      levels := h.levels ++ [r.level] }
  | _ => h

def History.enters (t : ℕ) : History :=
  let entered : Entered := { inside := s.owner = some t, reached := h.current.reached }
  { h with entered := Function.update h.entered t entered }

def History.observes : Label → History
  | .call t .evaluateAll => h.enters s t
  | .step t => match s.threads t with
    | frame :: _ => h.executed s t frame
    | [] => (s.inCycle t).elim h (h.cycled s)
  | .snapshot _ order =>
    { h with current := { h.current with policies := s.entries, snapshot := order } }
  | .reply t r => (s.inCycle t).elim h (h.replied r)
  | _ => h

/-- How a step changes the history. -/
def record (p : Evaluation) (a : Label) (q : Evaluation) (h : History) : History :=
  { h.observes p a with
    engaged := h.engaged + if !p.emergencyStopped_ && q.emergencyStopped_ then 1 else 0 }

/-- The manager with the record of its run. -/
def recorded : Machine (Evaluation × History) Label := machine.withHistory {} record

/-- **A complete cycle**: it visited each policy of its snapshot once, returned the worst of the
levels, published the violations, each to all handlers, and tripped the emergency stops. -/
structure Report.Complete (r : Report) (level : SafetyLevel) : Prop where
  snapshot : r.snapshot.Perm r.policies
  visits : r.reached.map Prod.fst = r.snapshot
  level : IsGreatest (levels r.reached) level
  events : r.events.map Sent.event = r.reached.filterMap violation
  delivered : ∀ e ∈ r.events, e.called = e.registered
  trips : r.trips = r.reached.filterMap alarm

/-! ## What a step does -/

/-- A frame of which no run speaks. -/
def Frame.plain : Frame → Bool
  | check | readWorst | lock => false
  | trip _ .stats => false
  | _ => true

variable {s h} {t : ℕ} {c : Cycle}

/-- The calls that a step of a thread leaves as they are: all, where foreign code makes a call, and
else all but the last. -/
inductive Under (s : Evaluation) (t : ℕ) : List Frame → Prop
  | own : s.userCode t = true → Under s t (s.threads t)
  | last {f : Frame} {rest : List Frame} :
    s.threads t = f :: rest → (∀ reason, f ≠ .trip reason .stats) → Under s t rest

/-- What the cycle does. -/
inductive CycleMove (s : Evaluation) (h : History) (c : Cycle) : Evaluation × History → Prop
  | clearWorst : c.pc = .clearWorst →
    CycleMove s h c ({ s with cycleWorst_ := .nominal }.goTo c .setOwner, h)
  | setOwner : c.pc = .setOwner →
    CycleMove s h c ({ s with evaluatingThread_ := some c.thread }.goTo c .snapshot, h)
  | snapshot {order : List Entry} : c.pc = .snapshot → order.Perm s.entries →
    CycleMove s h c (s.goTo c (.next order .nominal),
      { h with current := { h.current with policies := s.entries, snapshot := order } })
  | done {worst : SafetyLevel} : c.pc = .next [] worst →
    CycleMove s h c ({ s with stats_ :=
      { s.stats_ with evaluationCycles := s.stats_.evaluationCycles + 1 } }.goTo c
        (.clearOwner worst), h)
  | skips {entry : Entry} {rest : List Entry} {worst : SafetyLevel} :
    c.pc = .next (entry :: rest) worst →
    CycleMove s h c (s.goTo c (.next rest worst), h.visits (entry, none))
  | evaluates {entry : Entry} {rest : List Entry} {worst : SafetyLevel} :
    c.pc = .next (entry :: rest) worst →
    CycleMove s h c (s.goTo c (.evaluating entry rest worst), h)
  | replied {entry : Entry} {rest : List Entry} {worst : SafetyLevel} {r : Reply} {f : Found} :
    c.pc = .evaluating entry rest worst →
    f = { entry, result := r.result, rest, worst := max worst r.level } →
    CycleMove s h c
      ({ s with cycleWorst_ := if worst < r.level then r.level else s.cycleWorst_ }.goTo c
        (if SafetyLevel.nominal < r.level then .count f else .escalate f), h.replied r c)
  | counts {f : Found} : c.pc = .count f →
    CycleMove s h c ({ s with stats_ := s.counted f.result.level }.goTo c
      (.dispatching f (.copyHandlers f.event)), h)
  | sends {f : Found} {event : SafetyEvent} : c.pc = .dispatching f (.copyHandlers event) →
    CycleMove s h c (s.goTo c (.dispatching f (.notify event s.handlers_)),
      h.sends event s.handlers_)
  | hands {f : Found} {event : SafetyEvent} {handler : ℕ} {todo : List ℕ} :
    c.pc = .dispatching f (.notify event (handler :: todo)) →
    CycleMove s h c (s.goTo c (.dispatching f (.handling event todo)), h.hands handler)
  | handled {f : Found} {event : SafetyEvent} {todo : List ℕ} :
    c.pc = .dispatching f (.handling event todo) →
    CycleMove s h c (s.goTo c (.dispatching f (.notify event todo)), h)
  | sent {f : Found} {event : SafetyEvent} : c.pc = .dispatching f (.notify event []) →
    CycleMove s h c (s.goTo c (.escalate f), h.sent)
  | passes {f : Found} : c.pc = .escalate f → f.result.level ≠ .emergency →
    CycleMove s h c (s.goTo c (.next f.rest f.worst), h)
  | alarms {f : Found} : c.pc = .escalate f → f.result.level = .emergency →
    CycleMove s h c ((s.goTo c (.next f.rest f.worst)).setFrames c.thread
      [.trip f.reason .exchange], h.alarms f.reason)
  | clearOwner {worst : SafetyLevel} : c.pc = .clearOwner worst →
    CycleMove s h c ({ s with evaluatingThread_ := none }.goTo c (.unlock worst), h)
  | unlock {worst : SafetyLevel} : c.pc = .unlock worst →
    CycleMove s h c ({ s with cycle := none }.setFrames c.thread c.below,
      { h with finished := h.finished ++ [{ report := h.current, level := worst }] })

/-- **What a step does.** -/
inductive Move : Evaluation × History → Evaluation × History → Prop
  /-- a change of the registries -/
  | keeps {s : Evaluation} {h : History} {policies : Table String ℕ} {enabled : ℕ → Bool}
      {handlers : List ℕ} {running callback : Bool} :
    Move (s, h) ({ s with
      policies_ := policies, enabled_ := enabled, handlers_ := handlers, running_ := running,
      emergencyCallback_ := callback }, h)
  /-- a step of a call that is not evaluated -/
  | plain {s : Evaluation} {h : History} {t : ℕ} {rest : List Frame} {g : Option Frame}
      {latch running : Bool} {mutex : Option ℕ} :
    Under s t rest → (∀ f ∈ g, f.plain = true) →
    Move (s, h) ({ s with
      emergencyStopped_ := latch, running_ := running,
      emergencyCallbackMutex_ := mutex }.setFrames t (g.toList ++ rest), h)
  | enters {s : Evaluation} {h : History} {t : ℕ} : s.userCode t = true →
    Move (s, h) (s.setFrames t (.check :: s.threads t), h.enters s t)
  | finds {s : Evaluation} {h : History} {t : ℕ} {rest : List Frame} :
    s.threads t = .check :: rest → s.evaluatingThread_ = some t →
    Move (s, h) (s.setFrames t (.readWorst :: rest), h)
  | contends {s : Evaluation} {h : History} {t : ℕ} {rest : List Frame} :
    s.threads t = .check :: rest → s.evaluatingThread_ ≠ some t →
    Move (s, h) (s.setFrames t (.lock :: rest), h)
  | answers {s : Evaluation} {h : History} {t : ℕ} {rest : List Frame} :
    s.threads t = .readWorst :: rest →
    Move (s, h) (s.setFrames t rest, { h with answered := h.answered ++
      [{ call := h.entered t, reached := h.current.reached, level := s.cycleWorst_ }] })
  | locks {s : Evaluation} {h : History} {t : ℕ} {rest : List Frame} :
    s.threads t = .lock :: rest → s.cycle = none →
    Move (s, h)
      ({ s with cycle := some { thread := t, pc := .clearWorst, below := rest } }.setFrames t [],
        { h with current := { call := h.entered t } })
  | trips {s : Evaluation} {h : History} {t : ℕ} {reason : String} {rest : List Frame} :
    s.threads t = .trip reason .exchange :: rest →
    Move (s, h)
      ({ s with emergencyStopped_ := true }.setFrames t (.trip reason .stats :: rest),
        { h with
          levels := h.levels ++ [.emergency]
          engaged := h.engaged + 1
          tripping := insert t h.tripping })
  | tallies {s : Evaluation} {h : History} {t : ℕ} {reason : String} {rest : List Frame}
      {event : SafetyEvent} :
    s.threads t = .trip reason .stats :: rest →
    Move (s, h)
      ({ s with stats_ := { s.stats_ with
        emergencyStopCount := s.stats_.emergencyStopCount + 1
        worstLevelSeen := .emergency } }.setFrames t
          (.trip reason (.dispatching (.copyHandlers event)) :: rest),
        { h with tripping := h.tripping.erase t })
  | cycle {s : Evaluation} {h : History} {c : Cycle} {q : Evaluation × History} :
    s.cycle = some c → s.threads c.thread = [] → CycleMove s h c q → Move (s, h) q

variable {s' : Evaluation} {a : Label}

theorem engaged_executed {f : Frame} : (h.executed s t f).engaged = h.engaged := by
  unfold History.executed
  split
  · rfl
  · rfl
  · split_ifs <;> rfl
  · rfl
  · rfl

theorem engaged_cycled : (h.cycled s c).engaged = h.engaged := by
  unfold History.cycled
  split
  · split_ifs <;> rfl
  · rfl
  · rfl
  · rfl
  · split_ifs <;> rfl
  · rfl
  · rfl

theorem engaged_replied {r : Reply} : (h.replied r c).engaged = h.engaged := by
  unfold History.replied
  split <;> rfl

theorem engaged_observes : (h.observes s a).engaged = h.engaged := by
  unfold History.observes
  split
  · rfl
  · split
    · exact engaged_executed
    · cases s.inCycle _ with
      | none => rfl
      | some c => exact engaged_cycled
  · rfl
  · cases s.inCycle _ with
    | none => rfl
    | some c => exact engaged_replied
  · rfl

/-- A step that does not set the latch. -/
theorem record_eq (hlatch : s'.emergencyStopped_ = true → s.emergencyStopped_ = true) :
    record s a s' h = h.observes s a := by
  have hsame : (!s.emergencyStopped_ && s'.emergencyStopped_) = false := by
    cases hs : s'.emergencyStopped_ with
    | false => simp
    | true => simp [hlatch hs]
  unfold record
  rw [hsame, if_neg (by simp), Nat.add_zero, ← engaged_observes (s := s) (a := a)]

theorem Move.of_observes (hlatch : s'.emergencyStopped_ = true → s.emergencyStopped_ = true)
    (hmove : Move (s, h) (s', h.observes s a)) : Move (s, h) (s', record s a s' h) :=
  (record_eq hlatch).symm ▸ hmove

theorem inCycle_eq_some (hc : s.inCycle t = some c) :
    s.threads t = [] ∧ s.cycle = some c ∧ c.thread = t := by
  unfold inCycle at hc
  split_ifs at hc with hempty
  rw [Option.filter_eq_some_iff] at hc
  exact ⟨List.isEmpty_iff.mp hempty, hc.1, by simpa using hc.2⟩

/-- **What foreign code does by a call.** -/
theorem Move.perform {call : Call} (huser : s.userCode t = true)
    (hstep : s.perform t call = some s') : Move (s, h) (s', record s (.call t call) s' h) := by
  cases call with
  | evaluateAll =>
    obtain ⟨⟩ := hstep
    exact .of_observes (fun hl => hl) (.enters huser)
  | triggerEmergencyStop reason =>
    obtain ⟨⟩ := hstep
    exact .of_observes (fun hl => hl)
      (.plain (g := some (.trip reason .exchange)) (.own huser) (by simp [Frame.plain]))
  | resetEmergencyStop =>
    obtain ⟨⟩ := hstep
    exact .of_observes (fun hl => hl)
      (.plain (g := some (.reset .load)) (.own huser) (by simp [Frame.plain]))
  | start =>
    obtain ⟨⟩ := hstep
    exact .of_observes (fun hl => hl)
      (.plain (g := some (.start .exchange)) (.own huser) (by simp [Frame.plain]))
  | setEmergencyCallback given =>
    simp only [Evaluation.perform, Option.ite_none_right_eq_some] at hstep
    obtain ⟨-, ⟨⟩⟩ := hstep
    exact .of_observes (fun hl => hl) .keeps
  | _ =>
    obtain ⟨⟩ := hstep
    exact .of_observes (fun hl => hl) .keeps

theorem observes_frame {f : Frame} {rest : List Frame} (ht : s.threads t = f :: rest) :
    h.observes s (.step t) = h.executed s t f := by
  simp only [History.observes, ht]

theorem observes_cycle (hc : s.inCycle t = some c) :
    h.observes s (.step t) = h.cycled s c := by
  simp only [History.observes, (inCycle_eq_some hc).1, hc, Option.elim_some]

/-- A step of which the history says nothing. -/
theorem Move.quiet {f : Frame} {rest : List Frame} {g : Option Frame} {latch running : Bool}
    {mutex : Option ℕ} (ht : s.threads t = f :: rest) (hstats : ∀ reason, f ≠ .trip reason .stats)
    (hlatch : latch = true → s.emergencyStopped_ = true) (hf : h.executed s t f = h)
    (hg : ∀ f ∈ g, f.plain = true) {s' : Evaluation}
    (hs : s' = { s with
      emergencyStopped_ := latch, running_ := running,
      emergencyCallbackMutex_ := mutex }.setFrames t (g.toList ++ rest)) :
    Move (s, h) (s', record s (.step t) s' h) := by
  subst hs
  refine .of_observes hlatch ?_
  rw [observes_frame ht, hf]
  exact .plain (.last ht hstats) hg

theorem Move.tripStep {reason : String} {pc : TripPc} {rest : List Frame}
    (ht : s.threads t = .trip reason pc :: rest) (hstep : s.tripStep t reason rest pc = some s') :
    Move (s, h) (s', record s (.step t) s' h) := by
  unfold Evaluation.tripStep at hstep
  split at hstep
  · split_ifs at hstep with hlatch
    · exact .quiet (g := none) ht (by simp) (fun hl => hl) (by simp [History.executed, hlatch])
        (by simp) (Option.some.inj hstep).symm
    · obtain ⟨⟩ := hstep
      unfold record
      rw [observes_frame ht]
      simp only [History.executed, hlatch]
      exact .trips ht
  · obtain ⟨⟩ := hstep
    exact .of_observes (fun hl => hl) (observes_frame ht ▸ .tallies ht)
  · exact .quiet (g := some (.trip reason .lockCallback)) ht (by simp) (fun hl => hl) rfl
      (by simp [Frame.plain]) (Option.some.inj hstep).symm
  · obtain ⟨d, -, rfl⟩ := Option.map_eq_some_iff.mp hstep
    exact .quiet (g := some (.trip reason (.dispatching d))) ht (by simp) (fun hl => hl) rfl
      (by simp [Frame.plain]) rfl
  · simp only [Option.ite_none_right_eq_some] at hstep
    exact .quiet (g := some (.trip reason (if s.emergencyCallback_ then .callback else
      .unlockCallback))) ht (by simp) (fun hl => hl) rfl
      (by split_ifs <;> simp [Frame.plain]) (Option.some.inj hstep.2).symm
  · cases hstep
  · exact .quiet (g := none) ht (by simp) (fun hl => hl) rfl (by simp)
      (Option.some.inj hstep).symm

theorem Move.resetStep {pc : ResetPc} {rest : List Frame} (ht : s.threads t = .reset pc :: rest)
    (hstep : s.resetStep t rest pc = some s') :
    Move (s, h) (s', record s (.step t) s' h) := by
  unfold Evaluation.resetStep at hstep
  split at hstep
  · split_ifs at hstep with hlatch
    · exact .quiet (g := some (.reset .store)) ht (by simp) (fun hl => hl) rfl
        (by simp [Frame.plain]) (Option.some.inj hstep).symm
    · exact .quiet (g := none) ht (by simp) (fun hl => hl) rfl (by simp)
        (Option.some.inj hstep).symm
  · exact .quiet (g := some (.reset (.dispatching _))) ht (by simp) (by simp) rfl
      (by simp [Frame.plain]) (Option.some.inj hstep).symm
  · exact .quiet (g := none) ht (by simp) (fun hl => hl) rfl (by simp)
      (Option.some.inj hstep).symm
  · obtain ⟨d, -, rfl⟩ := Option.map_eq_some_iff.mp hstep
    exact .quiet (g := some (.reset (.dispatching d))) ht (by simp) (fun hl => hl) rfl
      (by simp [Frame.plain]) rfl

theorem Move.startStep {pc : StartPc} {rest : List Frame} (ht : s.threads t = .start pc :: rest)
    (hstep : s.startStep t rest pc = some s') :
    Move (s, h) (s', record s (.step t) s' h) := by
  cases pc with
  | exchange =>
    unfold Evaluation.startStep at hstep
    split_ifs at hstep with hrunning
    · exact .quiet (g := none) ht (by simp) (fun hl => hl) rfl (by simp)
        (Option.some.inj hstep).symm
    · exact .quiet (g := some (.start .store)) ht (by simp) (fun hl => hl) rfl
        (by simp [Frame.plain]) (Option.some.inj hstep).symm
  | store =>
    exact .quiet (g := none) ht (by simp) (by simp) rfl (by simp) (Option.some.inj hstep).symm

theorem Move.execute {f : Frame} {rest : List Frame} (ht : s.threads t = f :: rest)
    (hstep : s.execute t rest f = some s') : Move (s, h) (s', record s (.step t) s' h) := by
  cases f with
  | check =>
    obtain ⟨⟩ := hstep
    refine .of_observes (fun hl => hl) ?_
    rw [observes_frame ht]
    split_ifs with howner
    · exact .finds ht howner
    · exact .contends ht howner
  | readWorst =>
    obtain ⟨⟩ := hstep
    exact .of_observes (fun hl => hl) (observes_frame ht ▸ .answers ht)
  | lock =>
    simp only [Evaluation.execute, Option.ite_none_right_eq_some] at hstep
    obtain ⟨hfree, ⟨⟩⟩ := hstep
    exact .of_observes (fun hl => hl) (observes_frame ht ▸ .locks ht (Option.isNone_iff_eq_none.mp hfree))
  | trip reason pc => exact .tripStep ht hstep
  | reset pc => exact .resetStep ht hstep
  | start pc => exact .startStep ht hstep

theorem CycleMove.cycleStep (hstep : s.cycleStep c = some s') :
    CycleMove s h c (s', h.cycled s c) := by
  obtain ⟨thread, pc, below⟩ := c
  cases pc with
  | clearWorst =>
    obtain ⟨⟩ := hstep
    exact .clearWorst rfl
  | setOwner =>
    obtain ⟨⟩ := hstep
    exact .setOwner rfl
  | snapshot => exact absurd hstep (by simp [Evaluation.cycleStep])
  | next rest worst =>
    cases rest with
    | nil =>
      obtain ⟨⟩ := hstep
      exact .done rfl
    | cons entry rest =>
      obtain ⟨⟩ := hstep
      simp only [History.cycled]
      split_ifs with henabled
      · exact .evaluates rfl
      · exact .skips rfl
  | evaluating entry rest worst => exact absurd hstep (by simp [Evaluation.cycleStep])
  | count f =>
    obtain ⟨⟩ := hstep
    exact .counts rfl
  | dispatching f d =>
    cases d with
    | copyHandlers event =>
      obtain ⟨⟩ := hstep
      exact .sends rfl
    | notify event todo =>
      cases todo with
      | nil =>
        obtain ⟨⟩ := hstep
        exact .sent rfl
      | cons handler todo =>
        obtain ⟨⟩ := hstep
        exact .hands rfl
    | handling event todo =>
      exact absurd hstep (by simp [Evaluation.cycleStep, Dispatch.next])
  | escalate f =>
    obtain ⟨⟩ := hstep
    simp only [History.cycled]
    split_ifs with hlevel
    · exact .alarms rfl hlevel
    · exact .passes rfl hlevel
  | clearOwner worst =>
    obtain ⟨⟩ := hstep
    exact .clearOwner rfl
  | unlock worst =>
    obtain ⟨⟩ := hstep
    exact .unlock rfl

theorem CycleMove.takeSnapshot {order : List Entry} (hstep : s.takeSnapshot order c = some s') :
    CycleMove s h c (s',
      { h with current := { h.current with policies := s.entries, snapshot := order } }) := by
  simp only [Evaluation.takeSnapshot, Option.ite_none_right_eq_some] at hstep
  obtain ⟨⟨hpc, hperm⟩, ⟨⟩⟩ := hstep
  exact .snapshot hpc hperm

theorem CycleMove.takeReply {r : Reply} (hstep : s.takeReply r c = some s') :
    CycleMove s h c (s', h.replied r c) := by
  unfold Evaluation.takeReply at hstep
  split at hstep
  next entry rest worst hpc =>
    have hworst : max worst r.level = if worst < r.level then r.level else worst := by
      rw [max_comm, max_def]
      split_ifs with hle hlt hlt
      · exact absurd hlt (not_lt.mpr hle)
      · rfl
      · rfl
      · exact absurd (not_le.mp hle) hlt
    obtain ⟨⟩ := hstep
    have hmove := CycleMove.replied (s := s) (h := h) (r := r) hpc rfl
    rw [hworst] at hmove
    simp only [Reply.level_result]
    split_ifs at hmove ⊢ <;> exact hmove
  next => cases hstep

theorem CycleMove.takeHandled (hstep : s.takeHandled c = some s') : CycleMove s h c (s', h) := by
  unfold Evaluation.takeHandled at hstep
  split at hstep
  next f d hpc =>
    obtain ⟨d', hd', rfl⟩ := Option.map_eq_some_iff.mp hstep
    cases d with
    | handling event todo =>
      obtain ⟨⟩ := hd'
      exact .handled hpc
    | _ => exact absurd hd' (by simp [Dispatch.handled])
  next => cases hstep

/-- The cycle trips no emergency stop itself. -/
theorem CycleMove.latch {q : Evaluation × History} (hmove : CycleMove s h c q) :
    q.1.emergencyStopped_ = s.emergencyStopped_ := by
  cases hmove <;> rfl

theorem Move.ofCycle {h' : History} (hc : s.inCycle t = some c)
    (hobserves : h.observes s a = h') (hmove : CycleMove s h c (s', h')) :
    Move (s, h) (s', record s a s' h) := by
  obtain ⟨hempty, hcycle, rfl⟩ := inCycle_eq_some hc
  refine .of_observes (fun hl => hmove.latch ▸ hl) ?_
  exact hobserves ▸ .cycle hcycle hempty hmove

/-- **Every step is one of the moves.** -/
theorem move_of_step (hstep : s.step a = some s') : Move (s, h) (s', record s a s' h) := by
  cases a with
  | call t call =>
    simp only [Evaluation.step, Option.ite_none_right_eq_some] at hstep
    exact .perform hstep.1 hstep.2
  | step t =>
    simp only [Evaluation.step] at hstep
    split at hstep
    next ht => exact .execute ht hstep
    next ht =>
      obtain ⟨c, hc, hstep⟩ := Option.bind_eq_some_iff.mp hstep
      exact .ofCycle hc (observes_cycle hc) (.cycleStep hstep)
  | snapshot t order =>
    obtain ⟨c, hc, hstep⟩ := Option.bind_eq_some_iff.mp hstep
    exact .ofCycle hc rfl (.takeSnapshot hstep)
  | reply t r =>
    obtain ⟨c, hc, hstep⟩ := Option.bind_eq_some_iff.mp hstep
    have hreplied : h.observes s (.reply t r) = h.replied r c := by
      simp only [History.observes, hc, Option.elim_some]
    exact .ofCycle hc hreplied (.takeReply hstep)
  | handled t =>
    simp only [Evaluation.step] at hstep
    split at hstep
    next f rest ht =>
      obtain ⟨f', hf', rfl⟩ := Option.map_eq_some_iff.mp hstep
      refine .of_observes (fun hl => hl) (.plain (g := some f') (.last ht ?_) ?_)
      · rintro reason rfl
        exact absurd hf' (by simp [Frame.handled])
      · unfold Frame.handled at hf'
        split at hf'
        · obtain ⟨d, -, rfl⟩ := Option.map_eq_some_iff.mp hf'
          simp [Frame.plain]
        · obtain ⟨d, -, rfl⟩ := Option.map_eq_some_iff.mp hf'
          simp [Frame.plain]
        · exact absurd hf' (by simp)
    next ht =>
      obtain ⟨c, hc, hstep⟩ := Option.bind_eq_some_iff.mp hstep
      exact .ofCycle hc rfl (.takeHandled hstep)
  | hookReturns t =>
    simp only [Evaluation.step] at hstep
    split at hstep
    next reason rest ht =>
      obtain ⟨⟩ := hstep
      exact .of_observes (fun hl => hl)
        (.plain (g := some (.trip reason .unlockCallback)) (.last ht (by simp))
          (by simp [Frame.plain]))
    next => cases hstep

end Evaluation

end AxonVex
