import Mathlib.Data.List.Count
import Mathlib.Data.Nat.Notation
import Mathlib.Logic.Function.Basic

/-!
# Visualization/Fanout — one frame, and all who are subscribed to it

    dispatch:  number the frame;  dump;  snapshot of its channel ++ snapshot of "*";  call, call, …

The registry is a multimap: whoever is subscribed twice, to the channel or to the channel and to
`"*"`, is in the list twice and gets the frame twice (`received_overlap`); on a channel that is not
`"*"` itself there is one call for each subscription (`received_once_per_subscription`).

Nothing between the entry of the egress thread and the subscribers catches an exception, and
`nlohmann::json::dump` throws one where a channel is not UTF-8.  So `run` serves everybody exactly
when every channel is UTF-8 and every call returns (`nothing_escapes_iff`).
-/

namespace AxonVex

namespace Fanout

/-! ## Subscriptions -/

/-- A channel: a `std::string`, of any bytes. -/
abbrev Channel := List UInt8

/-- `"*"`. -/
def wildcard : Channel := [0x2A]

/-- `CallerKeyed`: the subscribers under their channels, in the order of registration. -/
abbrev Subscriptions := List (Channel × ℕ)

namespace Subscriptions

variable (subscribers_ : Subscriptions)

/-- `subscribe`; a null pointer is not registered. -/
def subscribe (channel : Channel) (cb : Option ℕ) : Subscriptions :=
  subscribers_ ++ (cb.map fun c => (channel, c)).toList

/-- `unsubscribe`: the first occurrence, and whether there was one. -/
def unsubscribe (channel : Channel) (cb : Option ℕ) : Subscriptions × Bool :=
  match cb with
  | none => (subscribers_, false)
  | some c => (subscribers_.erase (channel, c), decide ((channel, c) ∈ subscribers_))

/-- `unsubscribeAll`: what is left, and how many went. -/
def unsubscribeAll (channel : Channel) : Subscriptions × ℕ :=
  (subscribers_.filter fun c => c.1 != channel, subscribers_.countP fun c => c.1 == channel)

/-- `snapshotCallbacksForKey`. -/
def snapshotCallbacksForKey (channel : Channel) : List ℕ :=
  (subscribers_.filter fun c => c.1 == channel).map Prod.snd

/-- The subscribers that a frame of this channel is handed to, in order. -/
def targets (channel : Channel) : List ℕ :=
  subscribers_.snapshotCallbacksForKey channel ++ subscribers_.snapshotCallbacksForKey wildcard

/-- How often a subscriber is subscribed to a channel. -/
def subscriptions (channel : Channel) (cb : ℕ) : ℕ := subscribers_.count (channel, cb)

/-- A subscriber stands in a snapshot as often as it is subscribed. -/
theorem count_snapshot (channel : Channel) (cb : ℕ) :
    (subscribers_.snapshotCallbacksForKey channel).count cb =
      subscribers_.subscriptions channel cb := by
  rw [snapshotCallbacksForKey, subscriptions, List.count, List.countP_map, List.countP_filter,
    List.count]
  refine List.countP_congr fun c _ => ?_
  simp only [Function.comp_apply, Bool.and_eq_true, beq_iff_eq, Prod.ext_iff]
  exact and_comm

theorem count_targets (channel : Channel) (cb : ℕ) : (subscribers_.targets channel).count cb =
    subscribers_.subscriptions channel cb + subscribers_.subscriptions wildcard cb := by
  rw [targets, List.count_append, count_snapshot, count_snapshot]

/-- How many subscriptions of a subscriber a frame of this channel matches. -/
def matching (channel : Channel) (cb : ℕ) : ℕ :=
  subscribers_.countP fun c => (c.1 == channel || c.1 == wildcard) && c.2 == cb

/-- A subscription matches by its channel or by `"*"`, and by one of them only. -/
theorem count_targets_of_ne {channel : Channel} (hchannel : channel ≠ wildcard) (cb : ℕ) :
    (subscribers_.targets channel).count cb = subscribers_.matching channel cb := by
  rw [count_targets, subscriptions, subscriptions, matching]
  induction subscribers_ with
  | nil => rfl
  | cons c subscribers_ ih =>
    rw [List.count_cons, List.count_cons, List.countP_cons, ← ih]
    obtain ⟨key, c⟩ := c
    by_cases hkey : key = channel
    · subst hkey
      simp only [beq_iff_eq, beq_self_eq_true, Bool.true_or, Bool.true_and,
        Prod.mk.injEq, true_and, hchannel, false_and, if_false]
      omega
    · simp only [beq_iff_eq, Prod.mk.injEq, hkey, false_and, Bool.and_eq_true, Bool.or_eq_true,
        false_or, if_false]
      omega

end Subscriptions

/-! ## The egress thread -/

structure Record where
  channel : Channel
  timestampNs : UInt64
  payload : List UInt8
  deriving DecidableEq, Repr

/-- The four fields of a frame that are encoded. -/
structure Envelope extends Record where
  seq : UInt64
  deriving DecidableEq, Repr

structure TelemetryFrame extends Envelope where
  json : List UInt8
  deriving DecidableEq, Repr

/-- What the egress thread dequeues, and what it meets when it dispatches it. -/
structure Delivery where
  record : Record
  /-- the subscriptions when the snapshot is taken -/
  subscribers_ : Subscriptions
  /-- whether the call with this number throws -/
  throws : ℕ → Bool

/-- The subscribers that the record is for. -/
def Delivery.targets (d : Delivery) : List ℕ := d.subscribers_.targets d.record.channel

/-- The egress thread, with what it has done. -/
structure Bus where
  nextSeq_ : Channel → UInt64
  /-- the envelopes that were numbered -/
  numbered : List Envelope := []
  /-- the calls of `callbackPerform` -/
  calls : List (ℕ × TelemetryFrame) := []

/-- `j.dump()`; `none` throws. -/
abbrev Dump := Envelope → Option (List UInt8)

/-- The subscribers are called until one throws, and whether none did, after `i` calls. -/
def performAll (throws : ℕ → Bool) (i : ℕ) : List ℕ → List ℕ × Bool
  | [] => ([], true)
  | cb :: cbs =>
    if throws i then ([cb], false)
    else (cb :: (performAll throws (i + 1) cbs).1, (performAll throws (i + 1) cbs).2)

variable (dump : Dump)

/-- The envelope of a record. -/
def Bus.envelope (s : Bus) (record : Record) : Envelope :=
  { record with seq := s.nextSeq_ record.channel }

/-- The record is given the next number of its channel. -/
def Bus.number (s : Bus) (record : Record) : Bus :=
  { s with
    nextSeq_ := Function.update s.nextSeq_ record.channel (s.nextSeq_ record.channel + 1)
    numbered := s.numbered ++ [s.envelope record] }

/-- `dispatch`, and whether it returns: an exception goes on to the caller. -/
def Bus.dispatch (s : Bus) (d : Delivery) : Bus × Bool :=
  match dump (s.envelope d.record) with
  | none => (s.number d.record, false)
  | some json =>
    ({ s.number d.record with
        calls := s.calls ++ (performAll d.throws 0 d.targets).1.map fun cb =>
          (cb, { s.envelope d.record with json }) },
      (performAll d.throws 0 d.targets).2)

/-- The loop of the last drain: `dequeue`, `dispatch`, until nothing is there. -/
def Bus.drain (s : Bus) : List Delivery → Bus × Bool
  | [] => (s, true)
  | d :: ds =>
    if (s.dispatch dump d).2 then (s.dispatch dump d).1.drain ds else ((s.dispatch dump d).1, false)

/-- The turns of the loop until `running_` is cleared, each with what `tryDequeue` finds. -/
def Bus.loop (s : Bus) : List (Option Delivery) → Bus × Bool
  | [] => (s, true)
  | none :: turns => s.loop turns
  | some d :: turns =>
    if (s.dispatch dump d).2 then (s.dispatch dump d).1.loop turns
    else ((s.dispatch dump d).1, false)

/-- `run()`, and whether it returns: from a thread's entry an exception goes to `std::terminate`. -/
def Bus.run (s : Bus) (turns : List (Option Delivery)) (rest : List Delivery) : Bus × Bool :=
  if (s.loop dump turns).2 then (s.loop dump turns).1.drain dump rest else (s.loop dump turns)

/-- The records that `run` dequeues, in order. -/
def work (turns : List (Option Delivery)) (rest : List Delivery) : List Delivery :=
  turns.filterMap id ++ rest

variable {dump : Dump} {s : Bus} {d : Delivery}

/-- A byte that goes on with a character. -/
def continues (b : UInt8) : Bool := 0x80 ≤ b && b ≤ 0xBF

/-- Well-formed UTF-8: no overlong form, no surrogate, nothing above U+10FFFF. -/
def validUtf8 : Channel → Bool
  | [] => true
  | a :: rest =>
    if a ≤ 0x7F then validUtf8 rest
    else match rest with
    | [] => false
    | b :: rest =>
      if 0xC2 ≤ a ∧ a ≤ 0xDF then continues b && validUtf8 rest
      else match rest with
      | [] => false
      | c :: rest =>
        if 0xE0 ≤ a ∧ a ≤ 0xEF then
          continues b && (a != 0xE0 || 0xA0 ≤ b) && (a != 0xED || b ≤ 0x9F) && continues c &&
            validUtf8 rest
        else match rest with
        | [] => false
        | d :: rest =>
          (0xF0 ≤ a && a ≤ 0xF4) && continues b && (a != 0xF0 || 0x90 ≤ b) &&
            (a != 0xF4 || b ≤ 0x8F) && continues c && continues d && validUtf8 rest

/-! ## A few records -/

/-- A channel whose only byte begins no character. -/
def garbled : Delivery where
  record := { channel := [0xFF], timestampNs := 1, payload := [] }
  subscribers_ := [(wildcard, 0)]
  throws _ := false

/-- The channel `"imu"`, to which 0 is subscribed, as it is to `"*"`. -/
def imu : Delivery where
  record := { channel := [0x69, 0x6D, 0x75], timestampNs := 2, payload := [7] }
  subscribers_ := [([0x69, 0x6D, 0x75], 0), (wildcard, 0), (wildcard, 1)]
  throws _ := false

/-- An encoder that is as strict as `dump`, and writes the payload only. -/
def strict : Dump := fun e => if validUtf8 e.channel then some e.payload else none

theorem strict_isSome (e : Envelope) : (strict e).isSome = true ↔ validUtf8 e.channel = true := by
  rw [strict]
  split <;> simp_all

/-- The bus when it is new. -/
def fresh : Bus := { nextSeq_ := fun _ => 0 }

/-! ## One dispatch -/

/-- All are called and all return, exactly when none throws. -/
theorem performAll_iff {throws : ℕ → Bool} {i : ℕ} {cbs : List ℕ} :
    (performAll throws i cbs).2 = true ↔ ∀ k < cbs.length, throws (i + k) = false := by
  induction cbs generalizing i with
  | nil => simp [performAll]
  | cons cb cbs ih =>
    rw [performAll]
    split_ifs with hthrows
    · simp only [false_iff, not_forall]
      exact ⟨0, by simp, by simp [hthrows]⟩
    · rw [ih]
      refine ⟨fun h k hk => ?_, fun h k hk => ?_⟩
      · cases k with
        | zero => exact Bool.eq_false_iff.mpr hthrows
        | succ k =>
          have hlater := h k (by simpa using hk)
          rwa [Nat.add_right_comm, Nat.add_assoc] at hlater
      · have hlater := h (k + 1) (by simpa using hk)
        rwa [Nat.add_comm k 1, ← Nat.add_assoc] at hlater

theorem performAll_called {throws : ℕ → Bool} {i : ℕ} {cbs : List ℕ}
    (h : (performAll throws i cbs).2 = true) : (performAll throws i cbs).1 = cbs := by
  induction cbs generalizing i with
  | nil => rfl
  | cons cb cbs ih =>
    rw [performAll] at h ⊢
    split_ifs at h ⊢
    rw [ih h]

theorem dispatch_eq {json : List UInt8} (hdump : dump (s.envelope d.record) = some json) :
    s.dispatch dump d =
      ({ s.number d.record with
          calls := s.calls ++ (performAll d.throws 0 d.targets).1.map fun cb =>
            (cb, { s.envelope d.record with json }) },
        (performAll d.throws 0 d.targets).2) := by
  unfold Bus.dispatch
  rw [hdump]

/-- **A dispatch returns** exactly when the frame can be encoded and no subscriber throws. -/
theorem dispatch_returns_iff : (s.dispatch dump d).2 = true ↔
    (dump (s.envelope d.record)).isSome = true ∧ ∀ k < d.targets.length, d.throws k = false := by
  cases hdump : dump (s.envelope d.record) with
  | none => simp [Bus.dispatch, hdump]
  | some json =>
    rw [dispatch_eq hdump, performAll_iff]
    simp

/-- Whatever happens, the record is numbered. -/
theorem dispatch_numbered :
    (s.dispatch dump d).1.numbered = s.numbered ++ [s.envelope d.record] ∧
      (s.dispatch dump d).1.nextSeq_ = (s.number d.record).nextSeq_ := by
  unfold Bus.dispatch
  split <;> exact ⟨rfl, rfl⟩

/-- In a dispatch that returns, all targets are called, each with the same frame. -/
theorem dispatch_calls (h : (s.dispatch dump d).2 = true) :
    ∃ json, dump (s.envelope d.record) = some json ∧ (s.dispatch dump d).1.calls =
      s.calls ++ d.targets.map fun cb => (cb, { s.envelope d.record with json }) := by
  obtain ⟨json, hdump⟩ := Option.isSome_iff_exists.mp (dispatch_returns_iff.mp h).1
  refine ⟨json, hdump, ?_⟩
  rw [dispatch_eq hdump] at h ⊢
  rw [performAll_called h]

/-- The frames that a dispatch hands to a subscriber. -/
def received (dump : Dump) (s : Bus) (d : Delivery) (cb : ℕ) : List TelemetryFrame :=
  (((s.dispatch dump d).1.calls.drop s.calls.length).filter fun c => c.1 == cb).map Prod.snd

/-- **Each subscriber gets the frame once for each of its matching subscriptions.** -/
theorem received_once_per_subscription (h : (s.dispatch dump d).2 = true)
    (hchannel : d.record.channel ≠ wildcard) : ∃ frame : TelemetryFrame,
      frame.toEnvelope = s.envelope d.record ∧ ∀ cb, received dump s d cb =
        List.replicate (d.subscribers_.matching d.record.channel cb) frame := by
  obtain ⟨json, -, hcalls⟩ := dispatch_calls h
  refine ⟨{ s.envelope d.record with json }, rfl, fun cb => ?_⟩
  rw [received, hcalls, List.drop_left, List.filter_map, List.map_map]
  rw [← Subscriptions.count_targets_of_ne _ hchannel]
  refine List.eq_replicate_iff.mpr ⟨?_, fun frame hframe => ?_⟩
  · rw [List.length_map, ← List.countP_eq_length_filter]
    rfl
  · obtain ⟨c, -, rfl⟩ := List.mem_map.mp hframe
    rfl

/-- 0 gets the frame twice, and 1 once. -/
theorem received_overlap : ¬ ∀ (dump : Dump) (s : Bus) (d : Delivery) (cb : ℕ),
    (s.dispatch dump d).2 = true →
      (received dump s d cb).length = if cb ∈ d.targets then 1 else 0 :=
  fun h => absurd (h strict fresh imu 0 (by decide)) (by decide)

theorem received_imu : ∃ frame : TelemetryFrame, frame.toEnvelope = fresh.envelope imu.record ∧
    ∀ cb, received strict fresh imu cb =
      List.replicate (imu.subscribers_.matching imu.record.channel cb) frame :=
  received_once_per_subscription (by decide) (by decide)

/-! ## A whole run -/

/-- The frames of every channel carry consecutive numbers, from the next one on. -/
def Gapless (nextSeq_ : Channel → UInt64) (envelopes : List Envelope) : Prop :=
  ∀ channel, ((envelopes.filter fun e => e.channel == channel).map Envelope.seq) =
    (List.range (envelopes.countP fun e => e.channel == channel)).map
      fun i => nextSeq_ channel + UInt64.ofNat i

theorem gapless_nil (nextSeq_ : Channel → UInt64) : Gapless nextSeq_ [] := fun _ => rfl

/-- A frame with the next number of its channel, before others that count on from it. -/
theorem Gapless.cons {record : Record} {envelopes : List Envelope}
    (h : Gapless (s.number record).nextSeq_ envelopes) :
    Gapless s.nextSeq_ (s.envelope record :: envelopes) := by
  intro channel
  have hrest := h channel
  by_cases hchannel : record.channel = channel
  · subst hchannel
    rw [List.filter_cons_of_pos (by simp [Bus.envelope]), List.map_cons, hrest,
      List.countP_cons_of_pos (by simp [Bus.envelope]), List.range_succ_eq_map, List.map_cons,
      List.map_map]
    congr 1
    · simp [Bus.envelope]
    · refine List.map_congr_left fun i _ => ?_
      simp only [Bus.number, Function.update_self, Function.comp_apply, Nat.succ_eq_add_one,
        UInt64.ofNat_add]
      rw [UInt64.add_assoc, UInt64.add_comm 1]
      rfl
  · have hnext : (s.number record).nextSeq_ channel = s.nextSeq_ channel :=
      Function.update_of_ne (Ne.symm hchannel) ..
    rw [List.filter_cons_of_neg (by simpa [Bus.envelope] using hchannel), hrest,
      List.countP_cons_of_neg (by simpa [Bus.envelope] using hchannel), hnext]

/-- The records are served: each is numbered, and each of its targets is called with its frame. -/
structure Served (nextSeq_ : Channel → UInt64) (ds : List Delivery) (envelopes : List Envelope)
    (calls : List (ℕ × TelemetryFrame)) : Prop where
  numbered : envelopes.map Envelope.toRecord = ds.map Delivery.record
  gapless : Gapless nextSeq_ envelopes
  called : (calls.map fun c => (c.1, c.2.toEnvelope)) =
    (ds.zip envelopes).flatMap fun p => p.1.targets.map fun cb => (cb, p.2)

theorem drain_cons {ds : List Delivery} (h : (s.dispatch dump d).2 = true) :
    s.drain dump (d :: ds) = (s.dispatch dump d).1.drain dump ds := by
  rw [Bus.drain, if_pos h]

/-- **A drain returns** exactly when every dispatch can be encoded and no subscriber throws. -/
theorem drain_returns_iff (encodable : Channel → Prop)
    (hdump : ∀ e : Envelope, (dump e).isSome = true ↔ encodable e.channel) {ds : List Delivery} :
    (s.drain dump ds).2 = true ↔
      ∀ d ∈ ds, encodable d.record.channel ∧ ∀ k < d.targets.length, d.throws k = false := by
  induction ds generalizing s with
  | nil => simp [Bus.drain]
  | cons d ds ih =>
    have hfirst : (s.dispatch dump d).2 = true ↔
        encodable d.record.channel ∧ ∀ k < d.targets.length, d.throws k = false := by
      rw [dispatch_returns_iff, hdump]
      rfl
    rw [List.forall_mem_cons, ← hfirst]
    by_cases hreturns : (s.dispatch dump d).2 = true
    · rw [drain_cons hreturns, ih]
      exact ⟨fun h => ⟨hreturns, h⟩, fun h => h.2⟩
    · rw [Bus.drain, if_neg hreturns]
      exact ⟨fun h => (Bool.false_ne_true h).elim, fun h => absurd h.1 hreturns⟩

/-- A drain that returns has served every record. -/
theorem drain_served {ds : List Delivery} (h : (s.drain dump ds).2 = true) :
    ∃ envelopes calls, (s.drain dump ds).1.numbered = s.numbered ++ envelopes ∧
      (s.drain dump ds).1.calls = s.calls ++ calls ∧ Served s.nextSeq_ ds envelopes calls := by
  induction ds generalizing s with
  | nil =>
    exact ⟨[], [], (List.append_nil _).symm, (List.append_nil _).symm, rfl, gapless_nil _, rfl⟩
  | cons d ds ih =>
    have hreturns : (s.dispatch dump d).2 = true := by
      by_contra hnot
      rw [Bus.drain, if_neg hnot] at h
      cases h
    rw [drain_cons hreturns] at h ⊢
    obtain ⟨envelopes, calls, hnumbered, hcalls, hserved⟩ := ih h
    obtain ⟨json, -, hfirst⟩ := dispatch_calls hreturns
    obtain ⟨hnumber, hnext⟩ : (s.dispatch dump d).1.numbered = s.numbered ++ [s.envelope d.record] ∧
        (s.dispatch dump d).1.nextSeq_ = (s.number d.record).nextSeq_ := dispatch_numbered
    refine ⟨s.envelope d.record :: envelopes,
      (d.targets.map fun cb => (cb, { s.envelope d.record with json })) ++ calls, ?_, ?_, ?_, ?_,
      ?_⟩
    · rw [hnumbered, hnumber, List.append_assoc]
      rfl
    · rw [hcalls, hfirst, List.append_assoc]
    · rw [List.map_cons, List.map_cons, hserved.numbered]
      rfl
    · exact (hnext ▸ hserved.gapless).cons
    · rw [List.map_append, hserved.called, List.map_map, List.zip_cons_cons, List.flatMap_cons]
      rfl

theorem loop_eq_drain {turns : List (Option Delivery)} :
    s.loop dump turns = s.drain dump (turns.filterMap id) := by
  induction turns generalizing s with
  | nil => rfl
  | cons turn turns ih =>
    cases turn with
    | none => exact ih
    | some d =>
      rw [Bus.loop, ih]
      rfl

theorem drain_append {ds ds' : List Delivery} : s.drain dump (ds ++ ds') =
    if (s.drain dump ds).2 then (s.drain dump ds).1.drain dump ds' else s.drain dump ds := by
  induction ds generalizing s with
  | nil => rfl
  | cons d ds ih =>
    rw [List.cons_append, Bus.drain, Bus.drain, ih]
    by_cases hreturns : (s.dispatch dump d).2 = true
    · rw [if_pos hreturns, if_pos hreturns]
    · rw [if_neg hreturns, if_neg hreturns, if_neg Bool.false_ne_true]

/-- The loop and the drain behind it are one drain of all records. -/
theorem run_eq_drain {turns : List (Option Delivery)} {rest : List Delivery} :
    s.run dump turns rest = s.drain dump (work turns rest) := by
  rw [Bus.run, work, drain_append, loop_eq_drain]

/-- **Nothing escapes from `run`**: it returns, and it has served every record. -/
structure Contained (dump : Dump) (s : Bus) (turns : List (Option Delivery))
    (rest : List Delivery) : Prop where
  returns : (s.run dump turns rest).2 = true
  served : ∃ envelopes calls, (s.run dump turns rest).1.numbered = s.numbered ++ envelopes ∧
    (s.run dump turns rest).1.calls = s.calls ++ calls ∧
    Served s.nextSeq_ (work turns rest) envelopes calls

/-- **Nothing escapes from `run`** exactly when every channel is UTF-8 and every call returns. -/
theorem nothing_escapes_iff (hdump : ∀ e : Envelope, (dump e).isSome = true ↔ validUtf8 e.channel = true)
    (s : Bus) (turns : List (Option Delivery)) (rest : List Delivery) :
    Contained dump s turns rest ↔ ∀ d ∈ work turns rest,
      validUtf8 d.record.channel = true ∧ ∀ k < d.targets.length, d.throws k = false := by
  have hreturns : (s.drain dump (work turns rest)).2 = true ↔ ∀ d ∈ work turns rest,
      validUtf8 d.record.channel = true ∧ ∀ k < d.targets.length, d.throws k = false :=
    drain_returns_iff (fun channel => validUtf8 channel = true) hdump
  rw [← hreturns, ← run_eq_drain]
  refine ⟨Contained.returns, fun h => ⟨h, ?_⟩⟩
  rw [run_eq_drain] at h ⊢
  exact drain_served h

/-- The record behind the garbled one is not dispatched. -/
theorem dump_escapes : ¬ Contained strict fresh [some garbled, none] [imu] ∧
    (fresh.run strict [some garbled, none] [imu]).1.calls = [] :=
  ⟨fun h => absurd h.returns (by decide), by decide⟩

theorem contained_imu : Contained strict fresh [none, some imu] [imu] :=
  (nothing_escapes_iff strict_isSome fresh [none, some imu] [imu]).mpr (by decide)

end Fanout

end AxonVex
