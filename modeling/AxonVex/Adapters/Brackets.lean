import AxonVex.Adapters.AdapterBase
import Mathlib.Data.List.Induction

/-!
# Adapters/Brackets — what an adapter opens it closes once

    initialize ──▸ start: onStart ──▸ … ──▸ stop: onStop ──▸ shutdown: onShutdown

The mutex puts the calls of an adapter in a row.  A transport that `onStart` has opened is closed by
one `onStop` before the adapter is opened, released or initialised again, exactly as long as
`shutdown()` is not called while the adapter is connected (`closed_once_iff`): it goes on to
`onShutdown` without the `stop()` that the destructor makes first.
-/

namespace AxonVex

/-- How `onStart` ends. -/
inductive StartOutcome
  | opened | failed | threw
  deriving DecidableEq, Repr

/-- What a call does, in a row. -/
inductive AdapterEvent
  | stored (state : AdapterState)
  | onStart (outcome : StartOutcome)
  | onStop
  | onShutdown
  /-- `initialize()` returns `true` -/
  | initialized
  /-- the error handlers are called -/
  | reported (message : String)
  deriving DecidableEq, Repr

/-- A call; `onStart`, if it is called, ends like this. -/
inductive AdapterCall
  | initializeAdapter
  | start (outcome : StartOutcome)
  | stop
  | shutdown
  deriving DecidableEq, Repr

/-- An adapter between two calls. -/
structure Adapter where
  state_ : AdapterState := .disconnected
  initialized_ : Bool := false
  /-- what it has done so far -/
  events : List AdapterEvent := []
  deriving DecidableEq, Repr

namespace Adapter

/-- `state_.store(state)`. -/
def store (s : Adapter) (state : AdapterState) : Adapter :=
  { s with state_ := state, events := s.events ++ [.stored state] }

/-- Something else happens. -/
def does (s : Adapter) (event : AdapterEvent) : Adapter := { s with events := s.events ++ [event] }

/-- The adapter after a call, and what it returns; `none` where the call throws, or returns nothing. -/
def call (s : Adapter) : AdapterCall → Adapter × Option Bool
  | .initializeAdapter =>
    if s.state_ ≠ .disconnected then
      (s.does (.reported ("initialize() called in invalid state: " ++
        adapterStateToString s.state_)), some false)
    else ({ s with initialized_ := true }.does .initialized, some true)
  | .start outcome =>
    if !s.initialized_ then (s.does (.reported "start() called before initialize()"), some false)
    else if s.state_ = .connected then (s, some true)
    else if s.state_ ≠ .disconnected then
      (s.does (.reported ("start() called in invalid state: " ++ adapterStateToString s.state_)),
        some false)
    else
      let opening := (s.store .connecting).does (.onStart outcome)
      match outcome with
      | .opened => (opening.store .connected, some true)
      | .failed => (opening.store .error, some false)
      | .threw => (opening, none)
  | .stop =>
    if s.state_ = .disconnected ∨ s.state_ = .shuttingDown then (s, some true)
    else (((s.store .shuttingDown).does .onStop).store .disconnected, some true)
  | .shutdown =>
    ({ s.store .disconnected with initialized_ := false }.does .onShutdown, none)

/-- The adapter after these calls. -/
def after (calls : List AdapterCall) : Adapter := calls.foldl (fun s c => (s.call c).1) {}

theorem after_concat (calls : List AdapterCall) (c : AdapterCall) :
    after (calls ++ [c]) = ((after calls).call c).1 := by
  rw [after, List.foldl_concat, after]

end Adapter

/-! ## The transport -/

namespace AdapterEvent

/-- The adapter is opened, released or initialised. -/
def ends : AdapterEvent → Bool
  | onStart _ => true
  | onShutdown => true
  | initialized => true
  | _ => false

end AdapterEvent

/-- **Closed once**: between an `onStart` that has opened the transport and the next time the adapter
is opened, released or initialised, `onStop` is called once. -/
def ClosedOnce (events : List AdapterEvent) : Prop :=
  ∀ before middle : List AdapterEvent, ∀ next after,
    events = before ++ .onStart .opened :: (middle ++ next :: after) → next.ends = true →
      (∀ e ∈ middle, e.ends = false) → middle.count .onStop = 1

/-- A `Connected` state comes right after an `onStart` that has opened the transport. -/
def ConnectedByStart (events : List AdapterEvent) : Prop :=
  ∀ before after, events = before ++ .stored .connected :: after →
    ∃ before', before = before' ++ [.onStart .opened]

/-- How often the transport that was opened last has been closed; `none` where the adapter has been
released or initialised since, or `onStart` has failed. -/
def closings : List AdapterEvent → Option ℕ :=
  List.foldl (fun n e => match e with
    | .onStart outcome => if outcome = .opened then some 0 else none
    | .onShutdown => none
    | .initialized => none
    | .onStop => n.map (· + 1)
    | _ => n) none

variable {events : List AdapterEvent} {e : AdapterEvent} {s : Adapter}

theorem closings_concat (events : List AdapterEvent) (e : AdapterEvent) :
    closings (events ++ [e]) = match e with
      | .onStart outcome => if outcome = .opened then some 0 else none
      | .onShutdown => none
      | .initialized => none
      | .onStop => (closings events).map (· + 1)
      | _ => closings events :=
  List.foldl_concat ..

/-- The transport that was opened last has been closed `n` times, and not been given up. -/
def Opened (events : List AdapterEvent) (n : ℕ) : Prop :=
  ∃ before middle, events = before ++ .onStart .opened :: middle ∧
    (∀ e ∈ middle, e.ends = false) ∧ middle.count .onStop = n

theorem opened_concat {n : ℕ} : Opened (events ++ [e]) n ↔
    e = .onStart .opened ∧ n = 0 ∨
      e.ends = false ∧ ∃ m, Opened events m ∧ n = m + [e].count .onStop := by
  constructor
  · rintro ⟨before, middle, hevents, hmiddle, hcount⟩
    rcases List.eq_nil_or_concat middle with rfl | ⟨middle, last, rfl⟩
    · obtain ⟨-, hlast⟩ := List.append_inj' hevents rfl
      exact .inl ⟨(List.cons.inj hlast).1, hcount.symm⟩
    · rw [List.concat_eq_append, ← List.cons_append, ← List.append_assoc] at hevents
      obtain ⟨hinit, hlast⟩ := List.append_inj' hevents rfl
      obtain rfl := (List.cons.inj hlast).1
      rw [List.concat_eq_append] at hmiddle hcount
      refine .inr ⟨hmiddle e (List.mem_append_right _ (List.mem_singleton.mpr rfl)),
        _, ⟨before, middle, hinit, fun x hx => hmiddle x (List.mem_append_left _ hx), rfl⟩, ?_⟩
      rw [← hcount, List.count_append]
  · rintro (⟨rfl, rfl⟩ | ⟨hends, m, ⟨before, middle, rfl, hmiddle, hcount⟩, rfl⟩)
    · exact ⟨events, [], rfl, fun x hx => absurd hx List.not_mem_nil, rfl⟩
    · refine ⟨before, middle ++ [e], by rw [List.append_assoc, List.cons_append], fun x hx => ?_, ?_⟩
      · rcases List.mem_append.mp hx with hx | hx
        · exact hmiddle x hx
        · rw [List.mem_singleton.mp hx]
          exact hends
      · rw [List.count_append, hcount]

/-- **The count of the closings.** -/
theorem closings_eq_some_iff {n : ℕ} : closings events = some n ↔ Opened events n := by
  induction events using List.reverseRecOn generalizing n with
  | nil =>
    refine iff_of_false (by simp [closings]) ?_
    rintro ⟨before, middle, hevents, -⟩
    simp at hevents
  | append_singleton events e ih =>
    rw [closings_concat, opened_concat]
    cases e with
    | onStart outcome =>
      cases outcome <;> simp [AdapterEvent.ends, eq_comm]
    | onShutdown => simp [AdapterEvent.ends]
    | initialized => simp [AdapterEvent.ends]
    | onStop => simp [AdapterEvent.ends, ← ih, eq_comm]
    | stored state => simp [AdapterEvent.ends, ← ih]
    | reported message => simp [AdapterEvent.ends, ← ih]

/-- **One more event** keeps the transport closed once exactly if, where it ends a bracket, the
transport has been closed once. -/
theorem closedOnce_concat : ClosedOnce (events ++ [e]) ↔
    ClosedOnce events ∧ (e.ends = true → ∀ n, closings events = some n → n = 1) := by
  constructor
  · intro h
    refine ⟨fun before middle next after hevents => ?_, fun hends n hn => ?_⟩
    · refine h before middle next (after ++ [e]) ?_
      rw [hevents, List.append_assoc, List.cons_append, List.append_assoc, List.cons_append]
    · obtain ⟨before, middle, rfl, hmiddle, hcount⟩ := closings_eq_some_iff.mp hn
      refine hcount.symm.trans (h before middle e [] ?_ hends hmiddle)
      rw [List.append_assoc, List.cons_append]
  · rintro ⟨hclosed, hlast⟩ before middle next after hevents hends hmiddle
    rcases List.eq_nil_or_concat after with rfl | ⟨after, last, rfl⟩
    · rw [← List.cons_append, ← List.append_assoc] at hevents
      obtain ⟨hinit, hnext⟩ := List.append_inj' hevents rfl
      obtain rfl := (List.cons.inj hnext).1
      exact hlast hends _ (closings_eq_some_iff.mpr ⟨before, middle, hinit, hmiddle, rfl⟩)
    · have hsplit : events ++ [e] =
          (before ++ .onStart .opened :: (middle ++ next :: after)) ++ [last] := by
        rw [hevents]
        simp
      exact hclosed before middle next after (List.append_inj' hsplit rfl).1 hends hmiddle

theorem connectedByStart_concat (h : ConnectedByStart events)
    (he : e = .stored .connected → ∃ before, events = before ++ [.onStart .opened]) :
    ConnectedByStart (events ++ [e]) := by
  intro before after hevents
  rcases List.eq_nil_or_concat after with rfl | ⟨after, last, rfl⟩
  · obtain ⟨hinit, hlast⟩ := List.append_inj' hevents rfl
    exact hinit ▸ he (List.cons.inj hlast).1
  · rw [List.concat_eq_append, ← List.cons_append, ← List.append_assoc] at hevents
    exact h before after (List.append_inj' hevents rfl).1

/-! ## The calls -/

/-- What the state says of the transport that was opened last. -/
def Fits : AdapterState → Option ℕ → Prop
  | .connected, n => n = some 0
  | .disconnected, n => ∀ m, n = some m → m = 1
  | .connecting, n => n = none
  | .error, n => n = none
  | _, _ => False

/-- An adapter after any calls. -/
structure Adapter.Sound (s : Adapter) : Prop where
  fits : Fits s.state_ (closings s.events)
  started : ConnectedByStart s.events

namespace Adapter

theorem closings_store (s : Adapter) (state : AdapterState) :
    closings (s.store state).events = closings s.events := closings_concat ..

theorem closings_onStart (s : Adapter) (outcome : StartOutcome) :
    closings (s.does (.onStart outcome)).events = if outcome = .opened then some 0 else none :=
  closings_concat ..

theorem closings_onStop (s : Adapter) :
    closings (s.does .onStop).events = (closings s.events).map (· + 1) := closings_concat ..

/-- An event that ends no bracket leaves the transport closed once. -/
theorem closedOnce_does (s : Adapter) (he : e.ends = false) :
    ClosedOnce (s.does e).events ↔ ClosedOnce s.events := by
  rw [does, closedOnce_concat]
  exact and_iff_left fun hends => absurd hends (by rw [he]; exact Bool.noConfusion)

theorem closedOnce_store (s : Adapter) (state : AdapterState) :
    ClosedOnce (s.store state).events ↔ ClosedOnce s.events :=
  closedOnce_does { s with state_ := state } rfl

theorem started_does (h : ConnectedByStart s.events) (he : e ≠ .stored .connected) :
    ConnectedByStart (s.does e).events :=
  connectedByStart_concat h fun hstored => absurd hstored he

theorem started_store {state : AdapterState} (h : ConnectedByStart s.events)
    (hstate : state ≠ .connected) : ConnectedByStart (s.store state).events :=
  connectedByStart_concat h fun hstored => absurd (AdapterEvent.stored.inj hstored) hstate

/-- A call keeps what an adapter is, and the transport closed once exactly under this condition. -/
structure Keeps (s : Adapter) (c : AdapterCall) (condition : Prop) : Prop where
  sound : (s.call c).1.Sound
  closedOnce : ClosedOnce (s.call c).1.events ↔ ClosedOnce s.events ∧ condition

/-- The error handlers are called. -/
theorem Sound.reports (h : s.Sound) (message : String) : (s.does (.reported message)).Sound where
  fits := by
    rw [does, closings_concat]
    exact h.fits
  started := started_does h.started (by simp)

theorem Sound.initializeAdapter (h : s.Sound) : s.Keeps .initializeAdapter True := by
  by_cases hstate : s.state_ = .disconnected
  · have hcall : (s.call .initializeAdapter).1 =
        { s with initialized_ := true }.does .initialized := by
      simp [call, hstate]
    have hfits := h.fits
    rw [hstate] at hfits
    refine ⟨⟨?_, ?_⟩, ?_⟩
    · rw [hcall, does, closings_concat]
      change Fits s.state_ none
      rw [hstate]
      exact fun m hm => absurd hm (by simp)
    · rw [hcall]
      exact started_does (s := { s with initialized_ := true }) h.started (by simp)
    · rw [hcall, does, closedOnce_concat]
      exact and_congr_right fun _ => iff_of_true (fun _ => hfits) trivial
  · have hcall : (s.call .initializeAdapter).1 = s.does (.reported
        ("initialize() called in invalid state: " ++ adapterStateToString s.state_)) := by
      simp [call, hstate]
    refine ⟨hcall ▸ h.reports _, ?_⟩
    rw [hcall, closedOnce_does s rfl, and_true]

/-- `onStart` is called while the adapter is disconnected. -/
theorem Sound.opening (h : s.Sound) (hstate : s.state_ = .disconnected) (outcome : StartOutcome) :
    ClosedOnce ((s.store .connecting).does (.onStart outcome)).events ↔ ClosedOnce s.events := by
  have hfits := h.fits
  rw [hstate] at hfits
  rw [does, closedOnce_concat, closedOnce_store, closings_store]
  exact and_iff_left fun _ => hfits

theorem Sound.start (h : s.Sound) (outcome : StartOutcome) : s.Keeps (.start outcome) True := by
  have hreports (message : String)
      (hcall : (s.call (.start outcome)).1 = s.does (.reported message)) :
      s.Keeps (.start outcome) True := by
    refine ⟨hcall ▸ h.reports _, ?_⟩
    rw [hcall, closedOnce_does s rfl, and_true]
  by_cases hinitialized : s.initialized_ = true
  · by_cases hconnected : s.state_ = .connected
    · have hcall : (s.call (.start outcome)).1 = s := by simp [call, hinitialized, hconnected]
      exact ⟨hcall.symm ▸ h, by rw [hcall, and_true]⟩
    · by_cases hstate : s.state_ = .disconnected
      · have hopening : ConnectedByStart ((s.store .connecting).does (.onStart outcome)).events :=
          started_does (started_store h.started (by simp)) (by simp)
        cases outcome with
        | opened =>
          have hcall : (s.call (.start .opened)).1 =
              ((s.store .connecting).does (.onStart .opened)).store .connected := by
            simp [call, hinitialized, hstate]
          refine ⟨⟨?_, ?_⟩, ?_⟩
          · rw [hcall, closings_store, closings_onStart]
            rfl
          · rw [hcall]
            exact connectedByStart_concat hopening fun _ => ⟨_, rfl⟩
          · rw [hcall, closedOnce_store, h.opening hstate, and_true]
        | failed =>
          have hcall : (s.call (.start .failed)).1 =
              ((s.store .connecting).does (.onStart .failed)).store .error := by
            simp [call, hinitialized, hstate]
          refine ⟨⟨?_, ?_⟩, ?_⟩
          · rw [hcall, closings_store, closings_onStart]
            rfl
          · rw [hcall]
            exact started_store hopening (by simp)
          · rw [hcall, closedOnce_store, h.opening hstate, and_true]
        | threw =>
          have hcall : (s.call (.start .threw)).1 =
              (s.store .connecting).does (.onStart .threw) := by
            simp [call, hinitialized, hstate]
          refine ⟨⟨?_, ?_⟩, ?_⟩
          · rw [hcall, closings_onStart]
            rfl
          · rw [hcall]
            exact hopening
          · rw [hcall, h.opening hstate, and_true]
      · exact hreports ("start() called in invalid state: " ++ adapterStateToString s.state_)
          (by simp [call, hinitialized, hconnected, hstate])
  · exact hreports "start() called before initialize()" (by simp [call, hinitialized])

theorem Sound.stop (h : s.Sound) : s.Keeps .stop True := by
  have hfits := h.fits
  by_cases hstate : s.state_ = .disconnected ∨ s.state_ = .shuttingDown
  · have hcall : (s.call .stop).1 = s := by simp [call, hstate]
    exact ⟨hcall.symm ▸ h, by rw [hcall, and_true]⟩
  · have hcall : (s.call .stop).1 = ((s.store .shuttingDown).does .onStop).store .disconnected := by
      simp [call, hstate]
    refine ⟨⟨?_, ?_⟩, ?_⟩
    · rw [hcall, closings_store, closings_onStop, closings_store]
      change ∀ m, (closings s.events).map (· + 1) = some m → m = 1
      intro m hm
      obtain ⟨n, hn, rfl⟩ := Option.map_eq_some_iff.mp hm
      rw [hn] at hfits
      -- only a connected adapter has an open transport
      cases hs : s.state_ with
      | connected =>
        rw [hs] at hfits
        obtain ⟨⟩ := hfits
        rfl
      | disconnected => exact absurd (.inl hs) hstate
      | shuttingDown => exact absurd (.inr hs) hstate
      | _ =>
        rw [hs] at hfits
        exact absurd hfits (by simp [Fits])
    · rw [hcall]
      exact started_store (started_does (started_store h.started (by simp)) (by simp)) (by simp)
    · rw [hcall, closedOnce_store, closedOnce_does _ rfl, closedOnce_store, and_true]

/-- **`shutdown()` leaves a transport open** exactly if the adapter is connected. -/
theorem Sound.shutdown (h : s.Sound) : s.Keeps .shutdown (s.state_ ≠ .connected) := by
  have hfits := h.fits
  have hcall : (s.call .shutdown).1 =
      { s.store .disconnected with initialized_ := false }.does .onShutdown := rfl
  refine ⟨⟨?_, ?_⟩, ?_⟩
  · rw [hcall, does, closings_concat]
    exact fun m hm => absurd hm (by simp)
  · rw [hcall]
    exact connectedByStart_concat (started_store h.started (by simp)) (by simp)
  · rw [hcall, does, closedOnce_concat]
    refine and_congr (closedOnce_store s .disconnected) ?_
    change (_ → ∀ n, closings (s.store .disconnected).events = some n → n = 1) ↔ _
    rw [closings_store]
    constructor
    · intro hone hs
      rw [hs] at hfits
      exact absurd (hone rfl 0 hfits) (by decide)
    · intro hs _ n hn
      rw [hn] at hfits
      cases hstate : s.state_ with
      | connected => exact absurd hstate hs
      | disconnected =>
        rw [hstate] at hfits
        exact hfits n rfl
      | _ =>
        rw [hstate] at hfits
        exact absurd hfits (by simp [Fits])

/-! ## All calls -/

/-- **Every call** keeps what an adapter is, and the transport closed once except for a `shutdown()` while
it is connected. -/
theorem Sound.keeps (h : s.Sound) (c : AdapterCall) :
    s.Keeps c (c = .shutdown → s.state_ ≠ .connected) := by
  cases c with
  | initializeAdapter => exact ⟨h.initializeAdapter.sound, by simp [h.initializeAdapter.closedOnce]⟩
  | start outcome => exact ⟨(h.start outcome).sound, by simp [(h.start outcome).closedOnce]⟩
  | stop => exact ⟨h.stop.sound, by simp [h.stop.closedOnce]⟩
  | shutdown => exact ⟨h.shutdown.sound, by simp [h.shutdown.closedOnce]⟩

theorem sound_after (calls : List AdapterCall) : (after calls).Sound := by
  induction calls using List.reverseRecOn with
  | nil => exact ⟨fun m hm => absurd hm (by simp [after, closings]), fun before rest h => by
      simp [after] at h⟩
  | append_singleton calls c ih =>
    rw [after_concat]
    exact (ih.keeps c).sound

/-- No call releases the adapter while it is connected. -/
def NeverCutOff (calls : List AdapterCall) : Prop :=
  ∀ before rest, calls = before ++ .shutdown :: rest → (after before).state_ ≠ .connected

theorem neverCutOff_concat {calls : List AdapterCall} {c : AdapterCall} :
    NeverCutOff (calls ++ [c]) ↔
      NeverCutOff calls ∧ (c = .shutdown → (after calls).state_ ≠ .connected) := by
  constructor
  · intro h
    refine ⟨fun before rest hcalls => h before (rest ++ [c]) (by simp [hcalls]), ?_⟩
    rintro rfl
    exact h calls [] rfl
  · rintro ⟨hcalls, hlast⟩ before rest hsplit
    rcases List.eq_nil_or_concat rest with rfl | ⟨rest, last, rfl⟩
    · obtain ⟨rfl, hc⟩ := List.append_inj' hsplit rfl
      exact hlast (List.cons.inj hc).1
    · have hinit : calls ++ [c] = (before ++ .shutdown :: rest) ++ [last] := by
        rw [hsplit]
        simp
      exact hcalls before rest (List.append_inj' hinit rfl).1

/-- The transport stays closed once along a sequence of calls. -/
theorem closedOnce_after (calls : List AdapterCall) :
    ClosedOnce (after calls).events ↔ NeverCutOff calls := by
  induction calls using List.reverseRecOn with
  | nil =>
    refine iff_of_true (fun before middle next rest h => ?_) fun before rest h => ?_
    · simp [after] at h
    · simp at h
  | append_singleton calls c ih =>
    rw [after_concat, neverCutOff_concat, ← ih]
    exact ((sound_after calls).keeps c).closedOnce

/-- `stop()` brings the adapter back to `Disconnected`. -/
theorem Sound.state_stop (h : s.Sound) : (s.call .stop).1.state_ = .disconnected := by
  have hfits := h.fits
  rw [call]
  split_ifs with hstate
  · rcases hstate with hs | hs
    · exact hs
    · rw [hs] at hfits
      exact hfits.elim
  · rfl

end Adapter

open Adapter in
/-- **The transport is closed once** along every sequence of calls, whatever `onStart` does, exactly if
no call of `shutdown()` finds the adapter connected.  In every sequence `Connected` is reached only
through an `onStart` that opens the transport, and `stop()` leads back to `Disconnected`. -/
theorem closed_once_iff (calls : List AdapterCall) :
    (ClosedOnce (after calls).events ↔ NeverCutOff calls) ∧
      ConnectedByStart (after calls).events ∧
      ((after calls).call .stop).1.state_ = .disconnected :=
  ⟨closedOnce_after calls, (sound_after calls).started, (sound_after calls).state_stop⟩

open Adapter in
/-- An adapter that is started and shut down has never closed its transport. -/
theorem shutdown_leaves_open :
    (after [.initializeAdapter, .start .opened, .shutdown]).events =
        [.initialized, .stored .connecting, .onStart .opened, .stored .connected,
          .stored .disconnected, .onShutdown] ∧
      ¬ ClosedOnce (after [.initializeAdapter, .start .opened, .shutdown]).events := by
  refine ⟨by decide, fun h => ?_⟩
  have hclosed := h [.initialized, .stored .connecting] [.stored .connected, .stored .disconnected]
    .onShutdown [] (by decide) rfl (by decide)
  exact absurd hclosed (by decide)

end AxonVex
