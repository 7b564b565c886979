import AxonVex.Machinery.Roster
import AxonVex.Ports.Signals

/-!
# Ports/Connections — the writes of an output port and the list of its receivers

    OutputPort        write ▸ check for NaN, store currentData_ ▸ snapshot ▸ ports in turn ▸ return
    AsyncOutputPort   write ▸ snapshot ▸ ports in turn ▸ return

The list is copied and replaced under `connectionMutex_` by every call that changes it, and a write
takes the list of one moment and then sends its datum with no lock held.  Any number of writes are
under way at once, the ones that a receiver's callback makes among them, and between any two steps
the list may change and other writers may reach the receiving ports, along bridges for instance.

The list is a `Roster`, each receiving port is the one of `Signals`, and what a write has done is
kept in a `Delivery` beside it.
-/

namespace AxonVex

open Machinery

namespace Connections

variable {P T W V : Type*}

inductive Kind
  | OutputPort
  | AsyncOutputPort
  deriving DecidableEq

/-! ## The list -/

/-- A call on the list of an output port; `none` is a null pointer. -/
inductive ListCall (P : Type*)
  | connect (inputPort : Option P)
  | disconnect (inputPort : Option P)
  | disconnectAll

section List

variable [DecidableEq P]

/-- `connect(inputPort)`. -/
def connect (connections : List P) : Option P → List P
  | none => connections
  | some p => if p ∈ connections then connections else connections ++ [p]

/-- `disconnect(inputPort)`; a null pointer is never found. -/
def disconnect (connections : List P) : Option P → List P
  | none => connections
  | some p => connections.erase p

def ListCall.run (connections : List P) : ListCall P → List P
  | .connect inputPort => Connections.connect connections inputPort
  | .disconnect inputPort => Connections.disconnect connections inputPort
  | .disconnectAll => []

end List

/-- The edit that a call is, unless its pointer is null. -/
def ListCall.edits : ListCall P → List (Edit P)
  | .connect inputPort => (inputPort.map Edit.add).toList
  | .disconnect inputPort => (inputPort.map Edit.remove).toList
  | .disconnectAll => [.clear]

theorem ListCall.reflects [DecidableEq P] {connections : List P} {edits : List (Edit P)}
    (h : Reflects connections edits) (call : ListCall P) :
    Reflects (call.run connections) (edits ++ call.edits) := by
  have hnull : Reflects connections (edits ++ []) := by rwa [List.append_nil]
  cases call with
  | connect inputPort =>
    cases inputPort with
    | none => exact hnull
    | some p => exact h.edit (.add p)
  | disconnect inputPort =>
    cases inputPort with
    | none => exact hnull
    | some p => exact h.edit (.remove p)
  | disconnectAll => exact h.edit .clear

/-! ## Writes -/

/-- Where a call of `write` stands. -/
inductive Pc (P T : Type*)
  | idle
  /-- before the check for NaN -/
  | entered (d : T)
  /-- before the snapshot -/
  | stored (d : T)
  /-- in the loop over the snapshot, between two ports -/
  | dispatching (d : T) (rest : List P)
  /-- in the `writeData` or `update` of a port -/
  | sending (d : T) (p : P) (rest : List P)
  | returning

/-- The write takes its snapshot next. -/
def Pc.ready : Kind → Pc P T → Option T
  | .OutputPort, .stored d => some d
  | .AsyncOutputPort, .entered d => some d
  | _, _ => none

/-- The loop goes on once the call on the port has returned. -/
def Pc.resume (d : T) (p : P) (rest : List P) : Signals.WritePc T → Pc P T
  | .idle => .dispatching d rest
  | _ => .sending d p rest

/-- An output port, the writes on it (`W`), and the input ports, whose calls come from these writes
or from elsewhere (`V`). -/
structure State (P T W V : Type*) where
  connections : List P := []
  totalMessages : ℕ := 0
  currentData : T
  writes : W → Pc P T
  receivers : P → Signals.State T (W ⊕ V) Unit

inductive Label (P T W V : Type*)
  | call (c : ListCall P)
  | write (w : W) (d : T)
  | check (w : W)
  | snapshot (w : W)
  /-- the next port of the snapshot -/
  | next (w : W)
  /-- a step of the call on that port -/
  | receive (w : W) (step : Signals.WriteStep T)
  | finish (w : W)
  /-- a call on an input port from elsewhere -/
  | other (v : V) (p : P) (step : Signals.WriteStep T)

variable {kind : Kind} {isNan : T → Bool} {accepts : P → T → Bool} {zero : T}
  {s t : State P T W V} {a : Label P T W V}

section Port

variable [DecidableEq P] [DecidableEq W] [DecidableEq V]

/-- An input port, of whose consumer nothing is said. -/
def receiver (accepts : T → Bool) (zero : T) :
    Machine (Signals.State T (W ⊕ V) Unit) (Signals.Label T (W ⊕ V) Empty) :=
  Signals.machine accepts (fun a _ _ => a.elim) zero ()

/-- An output port and the ports it may be connected to; `accepts` is the verdict of each of them. -/
def port (kind : Kind) (isNan : T → Bool) (accepts : P → T → Bool) (zero : T) :
    Machine (State P T W V) (Label P T W V) where
  init s := s = {
    currentData := zero
    writes := fun _ => .idle
    receivers := fun _ => { port := { data := zero }, writers := fun _ => .idle, consumer := () } }
  step s
    | .call c => some { s with connections := c.run s.connections }
    | .write w d =>
      match s.writes w with
      | .idle => some { s with
          totalMessages := s.totalMessages + 1
          writes := Function.update s.writes w (.entered d) }
      | _ => none
    | .check w =>
      match kind, s.writes w with
      | .OutputPort, .entered d =>
        if isNan d then some { s with writes := Function.update s.writes w .returning }
        else some { s with
          currentData := d
          writes := Function.update s.writes w (.stored d) }
      | _, _ => none
    | .snapshot w => ((s.writes w).ready kind).map fun d =>
      { s with writes := Function.update s.writes w (.dispatching d s.connections) }
    | .next w =>
      match s.writes w with
      | .dispatching d (p :: rest) =>
        ((receiver (accepts p) zero).step (s.receivers p) (.write (.inl w) (.call d))).map fun r =>
          { s with
            writes := Function.update s.writes w (.sending d p rest)
            receivers := Function.update s.receivers p r }
      | _ => none
    | .receive w step =>
      match s.writes w with
      | .sending d p rest =>
        ((receiver (accepts p) zero).step (s.receivers p) (.write (.inl w) step)).map fun r =>
          { s with
            writes := Function.update s.writes w (.resume d p rest (r.writers (.inl w)))
            receivers := Function.update s.receivers p r }
      | _ => none
    | .finish w =>
      match s.writes w with
      | .dispatching _ [] => some { s with writes := Function.update s.writes w .idle }
      | .returning => some { s with writes := Function.update s.writes w .idle }
      | _ => none
    | .other v p step =>
      ((receiver (accepts p) zero).step (s.receivers p) (.write (.inr v) step)).map fun r =>
        { s with receivers := Function.update s.receivers p r }

/-- What a step does. -/
inductive Steps (kind : Kind) (isNan : T → Bool) (accepts : P → T → Bool) (zero : T)
    (s : State P T W V) : Label P T W V → State P T W V → Prop
  | call (c : ListCall P) :
    Steps kind isNan accepts zero s (.call c) { s with connections := c.run s.connections }
  | write (w : W) (d : T) (hw : s.writes w = .idle) :
    Steps kind isNan accepts zero s (.write w d)
      { s with
        totalMessages := s.totalMessages + 1
        writes := Function.update s.writes w (.entered d) }
  | refuse (w : W) (d : T) (hw : s.writes w = .entered d) (hkind : kind = .OutputPort)
    (hd : isNan d = true) :
    Steps kind isNan accepts zero s (.check w)
      { s with writes := Function.update s.writes w .returning }
  | store (w : W) (d : T) (hw : s.writes w = .entered d) (hkind : kind = .OutputPort)
    (hd : isNan d = false) :
    Steps kind isNan accepts zero s (.check w)
      { s with
        currentData := d
        writes := Function.update s.writes w (.stored d) }
  | snapshot (w : W) (d : T) (hw : (s.writes w).ready kind = some d) :
    Steps kind isNan accepts zero s (.snapshot w)
      { s with writes := Function.update s.writes w (.dispatching d s.connections) }
  | next (w : W) (d : T) (p : P) (rest : List P) (r : Signals.State T (W ⊕ V) Unit)
    (hw : s.writes w = .dispatching d (p :: rest))
    (hr : (receiver (accepts p) zero).step (s.receivers p) (.write (.inl w) (.call d)) = some r) :
    Steps kind isNan accepts zero s (.next w)
      { s with
        writes := Function.update s.writes w (.sending d p rest)
        receivers := Function.update s.receivers p r }
  | receive (w : W) (step : Signals.WriteStep T) (d : T) (p : P) (rest : List P)
    (r : Signals.State T (W ⊕ V) Unit) (hw : s.writes w = .sending d p rest)
    (hr : (receiver (accepts p) zero).step (s.receivers p) (.write (.inl w) step) = some r) :
    Steps kind isNan accepts zero s (.receive w step)
      { s with
        writes := Function.update s.writes w (.resume d p rest (r.writers (.inl w)))
        receivers := Function.update s.receivers p r }
  | finish (w : W) (d : T) (hw : s.writes w = .dispatching d []) :
    Steps kind isNan accepts zero s (.finish w)
      { s with writes := Function.update s.writes w .idle }
  | returns (w : W) (hw : s.writes w = .returning) :
    Steps kind isNan accepts zero s (.finish w)
      { s with writes := Function.update s.writes w .idle }
  | other (v : V) (p : P) (step : Signals.WriteStep T) (r : Signals.State T (W ⊕ V) Unit)
    (hr : (receiver (accepts p) zero).step (s.receivers p) (.write (.inr v) step) = some r) :
    Steps kind isNan accepts zero s (.other v p step)
      { s with receivers := Function.update s.receivers p r }

/-- **Every step is one of these.** -/
theorem steps (h : (port kind isNan accepts zero).step s a = some t) :
    Steps kind isNan accepts zero s a t := by
  cases a with
  | call c => exact Option.some.inj h ▸ .call c
  | write w d =>
    simp only [port] at h
    split at h
    next hw => exact Option.some.inj h ▸ .write w d hw
    next => cases h
  | check w =>
    simp only [port] at h
    split at h
    next d hw =>
      split at h
      next hd => exact Option.some.inj h ▸ .refuse w d hw rfl hd
      next hd => exact Option.some.inj h ▸ .store w d hw rfl (by simpa using hd)
    next => cases h
  | snapshot w =>
    obtain ⟨d, hd, rfl⟩ := Option.map_eq_some_iff.mp h
    exact .snapshot w d hd
  | next w =>
    simp only [port] at h
    split at h
    next d p rest hw =>
      obtain ⟨r, hr, rfl⟩ := Option.map_eq_some_iff.mp h
      exact .next w d p rest r hw hr
    next => cases h
  | receive w step =>
    simp only [port] at h
    split at h
    next d p rest hw =>
      obtain ⟨r, hr, rfl⟩ := Option.map_eq_some_iff.mp h
      exact .receive w step d p rest r hw hr
    next => cases h
  | finish w =>
    simp only [port] at h
    split at h
    next d hw => exact Option.some.inj h ▸ .finish w d hw
    next hw => exact Option.some.inj h ▸ .returns w hw
    next => cases h
  | other v p step =>
    obtain ⟨r, hr, rfl⟩ := Option.map_eq_some_iff.mp h
    exact .other v p step r hr

/-! ## Deliveries -/

/-- What a write has done: its datum, the list it took, and the calls it has made since. -/
structure Delivery (P T : Type*) where
  datum : T
  snapshot : Option (List P) := none
  delivered : List (P × T) := []

/-- The datum went to every port of the list that the write took, once each and in its order. -/
def Delivery.ToAll (e : Delivery P T) : Prop :=
  ∃ targets, e.snapshot = some targets ∧ targets.Nodup ∧
    e.delivered = targets.map fun p => (p, e.datum)

/-- The edits of the list, the deliveries of the writes under way, and of those that have returned. -/
structure History (P T W : Type*) where
  edits : List (Edit P) := []
  current : W → Option (Delivery P T)
  returned : List (Delivery P T) := []

/-- The history after a step. -/
def record (s : State P T W V) (a : Label P T W V) (_ : State P T W V) (h : History P T W) :
    History P T W :=
  match a with
  | .call c => { h with edits := h.edits ++ c.edits }
  | .write w d => { h with current := Function.update h.current w (some { datum := d }) }
  | .snapshot w => { h with
      current := Function.update h.current w
        ((h.current w).map fun e => { e with snapshot := some s.connections }) }
  | .next w =>
    match s.writes w with
    | .dispatching d (p :: _) => { h with
        current := Function.update h.current w
          ((h.current w).map fun e => { e with delivered := e.delivered ++ [(p, d)] }) }
    | _ => h
  | .finish w => { h with
      current := Function.update h.current w none
      returned := h.returned ++ (h.current w).toList }
  | _ => h

/-- The port with its history. -/
def observed (kind : Kind) (isNan : T → Bool) (accepts : P → T → Bool) (zero : T) :
    Machine (State P T W V × History P T W) (Label P T W V) :=
  (port kind isNan accepts zero).withHistory { current := fun _ => none } record

/-- The output port takes the datum: an `AsyncOutputPort` takes everything. -/
def takes (kind : Kind) (isNan : T → Bool) (d : T) : Bool :=
  match kind with
  | .OutputPort => !isNan d
  | .AsyncOutputPort => true

end Port

/-- What a write has done so far, by where it stands. -/
inductive Fits (kind : Kind) (isNan : T → Bool) : Pc P T → Option (Delivery P T) → Prop
  | idle : Fits kind isNan .idle none
  | entered (d : T) : Fits kind isNan (.entered d) (some { datum := d })
  | stored (d : T) (hd : takes kind isNan d = true) :
    Fits kind isNan (.stored d) (some { datum := d })
  | dispatching (d : T) (done rest : List P) (hd : takes kind isNan d = true)
    (hnodup : (done ++ rest).Nodup) :
    Fits kind isNan (.dispatching d rest)
      (some { datum := d, snapshot := some (done ++ rest), delivered := done.map fun p => (p, d) })
  | sending (d : T) (done : List P) (p : P) (rest : List P) (hd : takes kind isNan d = true)
    (hnodup : (done ++ rest).Nodup) :
    Fits kind isNan (.sending d p rest)
      (some { datum := d, snapshot := some (done ++ rest), delivered := done.map fun p => (p, d) })
  | returning (d : T) (hd : takes kind isNan d = false) :
    Fits kind isNan .returning (some { datum := d })

theorem Fits.refuse {e : Option (Delivery P T)} {d : T} (h : Fits kind isNan (.entered d) e)
    (hd : takes kind isNan d = false) : Fits kind isNan .returning e := by
  cases h with
  | entered d => exact .returning d hd

theorem Fits.store {e : Option (Delivery P T)} {d : T} (h : Fits kind isNan (.entered d) e)
    (hd : takes kind isNan d = true) : Fits kind isNan (.stored d) e := by
  cases h with
  | entered d => exact .stored d hd

theorem Fits.snapshot {pc : Pc P T} {e : Option (Delivery P T)} {d : T} {connections : List P}
    (h : Fits kind isNan pc e) (hpc : pc.ready kind = some d) (hnodup : connections.Nodup) :
    Fits kind isNan (.dispatching d connections)
      (e.map fun e => { e with snapshot := some connections }) := by
  cases h with
  | entered d' =>
    cases kind with
    | OutputPort => exact absurd hpc (by simp [Pc.ready])
    | AsyncOutputPort =>
      obtain rfl : d' = d := by simpa [Pc.ready] using hpc
      exact .dispatching d' [] connections rfl hnodup
  | stored d' hd =>
    cases kind with
    | OutputPort =>
      obtain rfl : d' = d := by simpa [Pc.ready] using hpc
      exact .dispatching d' [] connections hd hnodup
    | AsyncOutputPort => exact absurd hpc (by simp [Pc.ready])
  | _ => exact absurd hpc (by cases kind <;> simp [Pc.ready])

theorem Fits.next {e : Option (Delivery P T)} {d : T} {p : P} {rest : List P}
    (h : Fits kind isNan (.dispatching d (p :: rest)) e) :
    Fits kind isNan (.sending d p rest)
      (e.map fun e => { e with delivered := e.delivered ++ [(p, d)] }) := by
  cases h with
  | dispatching _ done _ hd hnodup =>
    have hsplit : done ++ p :: rest = (done ++ [p]) ++ rest := by simp
    have hdone : (done.map fun q => (q, d)) ++ [(p, d)] = (done ++ [p]).map fun q => (q, d) := by
      simp
    rw [Option.map_some, hsplit, hdone]
    exact .sending d (done ++ [p]) p rest hd (hsplit ▸ hnodup)

theorem Fits.resume {e : Option (Delivery P T)} {d : T} {p : P} {rest : List P}
    (h : Fits kind isNan (.sending d p rest) e) (pc : Signals.WritePc T) :
    Fits kind isNan (.resume d p rest pc) e := by
  cases h with
  | sending _ done _ _ hd hnodup =>
    cases pc with
    | idle => exact .dispatching d done rest hd hnodup
    | _ => exact .sending d done p rest hd hnodup

/-- A write that returns has sent its datum to all, unless the port did not take it. -/
theorem Fits.finish {e : Delivery P T} {d : T}
    (h : Fits kind isNan (.dispatching d []) (some e)) : e.ToAll := by
  cases h with
  | dispatching _ done _ hd hnodup =>
    rw [List.append_nil] at hnodup
    exact ⟨done, by simp, hnodup, rfl⟩

/-- A write under way has sent its datum to the first ports of its list. -/
theorem Fits.delivered {pc : Pc P T} {e : Delivery P T} {targets : List P}
    (h : Fits kind isNan pc (some e)) (he : e.snapshot = some targets) :
    targets.Nodup ∧ e.delivered <+: targets.map fun p => (p, e.datum) := by
  cases h with
  | dispatching d done rest hd hnodup =>
    obtain ⟨⟩ := he
    exact ⟨hnodup, by simp⟩
  | sending d done p rest hd hnodup =>
    obtain ⟨⟩ := he
    exact ⟨hnodup, by simp⟩
  | _ => cases he

/-! ## What holds in every state -/

/-- No write is under way, and no other call on an input port. -/
structure AllReturned (s : State P T W V) : Prop where
  writes (w : W) : s.writes w = .idle
  others (v : V) (p : P) : (s.receivers p).writers (.inr v) = .idle

/-- The list is what the edits make it; each write fits its delivery; those that have returned are
complete; a call on an input port belongs to the write that is sending to it; and the ports count
what they are sent. -/
structure Holds (kind : Kind) (isNan : T → Bool) (s : State P T W V) (h : History P T W) : Prop where
  list : Reflects s.connections h.edits
  fits (w : W) : Fits kind isNan (s.writes w) (h.current w)
  returned (e : Delivery P T) : e ∈ h.returned → takes kind isNan e.datum = true → e.ToAll
  calls (w : W) (p : P) : (s.receivers p).writers (.inl w) ≠ .idle →
    ∃ d rest, s.writes w = .sending d p rest
  counted (p : P) : (s.receivers p).Counted

variable [DecidableEq W] {h h' : History P T W}

/-- A step of a write that leaves the list and the input ports alone. -/
theorem Holds.update {u : State P T W V} {w : W} {pc : Pc P T} (hs : Holds kind isNan s h)
    (hconnections : u.connections = s.connections) (hreceivers : u.receivers = s.receivers)
    (hwrites : u.writes = Function.update s.writes w pc) (hedits : h'.edits = h.edits)
    {e : Option (Delivery P T)} (hcurrent : h'.current = Function.update h.current w e)
    (hreturned : ∀ e ∈ h'.returned, takes kind isNan e.datum = true → e.ToAll)
    (hfits : Fits kind isNan pc e) (hw : ∀ d p rest, s.writes w ≠ .sending d p rest) :
    Holds kind isNan u h' where
  list := by rw [hconnections, hedits]; exact hs.list
  fits v := by
    rw [hwrites, hcurrent]
    by_cases hvw : v = w
    · subst hvw
      simpa using hfits
    · simpa [hvw] using hs.fits v
  returned := hreturned
  calls v p hp := by
    rw [hreceivers] at hp
    obtain ⟨d, rest, hv⟩ := hs.calls v p hp
    have hvw : v ≠ w := by
      rintro rfl
      exact hw d p rest hv
    exact ⟨d, rest, by rw [hwrites, Function.update_of_ne hvw, hv]⟩
  counted p := hreceivers ▸ hs.counted p

variable [DecidableEq P] [DecidableEq V]

/-- A step of a write in the call on an input port. -/
theorem Holds.send {w : W} {p : P} {pc : Pc P T} {e : Option (Delivery P T)}
    {step : Signals.WriteStep T} {r : Signals.State T (W ⊕ V) Unit} (hs : Holds kind isNan s h)
    (hr : (receiver (accepts p) zero).step (s.receivers p) (.write (.inl w) step) = some r)
    (hfits : Fits kind isNan pc e)
    (honly : ∀ q, (s.receivers q).writers (.inl w) ≠ .idle → q = p)
    (hpc : r.writers (.inl w) ≠ .idle → ∃ d rest, pc = .sending d p rest) :
    Holds kind isNan
      { s with
        writes := Function.update s.writes w pc
        receivers := Function.update s.receivers p r }
      { h with current := Function.update h.current w e } where
  list := hs.list
  fits v := by
    by_cases hvw : v = w
    · subst hvw
      simpa using hfits
    · simpa [hvw] using hs.fits v
  returned := hs.returned
  calls v q hq := by
    dsimp only at hq ⊢
    by_cases hvw : v = w
    · subst hvw
      rw [Function.update_self]
      by_cases hqp : q = p
      · subst hqp
        rw [Function.update_self] at hq
        exact hpc hq
      · rw [Function.update_of_ne hqp] at hq
        exact absurd (honly q hq) hqp
    · rw [Function.update_of_ne hvw]
      by_cases hqp : q = p
      · subst hqp
        rw [Function.update_self, (Signals.steps hr).writers_of_ne (by simpa using hvw)] at hq
        exact hs.calls v q hq
      · rw [Function.update_of_ne hqp] at hq
        exact hs.calls v q hq
  counted q := by
    dsimp only
    by_cases hqp : q = p
    · subst hqp
      rw [Function.update_self]
      exact (hs.counted q).step (Signals.steps hr)
    · rw [Function.update_of_ne hqp]
      exact hs.counted q

/-- A step of a call on an input port from elsewhere. -/
theorem Holds.other {v : V} {p : P} {step : Signals.WriteStep T}
    {r : Signals.State T (W ⊕ V) Unit} (hs : Holds kind isNan s h)
    (hr : (receiver (accepts p) zero).step (s.receivers p) (.write (.inr v) step) = some r) :
    Holds kind isNan { s with receivers := Function.update s.receivers p r } h where
  list := hs.list
  fits := hs.fits
  returned := hs.returned
  calls w q hq := by
    dsimp only at hq
    by_cases hqp : q = p
    · subst hqp
      rw [Function.update_self, (Signals.steps hr).writers_of_ne (by simp)] at hq
      exact hs.calls w q hq
    · rw [Function.update_of_ne hqp] at hq
      exact hs.calls w q hq
  counted q := by
    dsimp only
    by_cases hqp : q = p
    · subst hqp
      rw [Function.update_self]
      exact (hs.counted q).step (Signals.steps hr)
    · rw [Function.update_of_ne hqp]
      exact hs.counted q

theorem Holds.step (hs : Holds kind isNan s h) (hst : Steps kind isNan accepts zero s a t) :
    Holds kind isNan t (record s a t h) := by
  cases hst with
  | call c => exact ⟨c.reflects hs.list, hs.fits, hs.returned, hs.calls, hs.counted⟩
  | write w d hw =>
    exact hs.update rfl rfl rfl rfl rfl hs.returned (.entered d) (by simp [hw])
  | refuse w d hw hkind hd =>
    have hfits := (hw ▸ hs.fits w).refuse (by simp [takes, hkind, hd])
    exact hs.update rfl rfl rfl rfl (Function.update_eq_self w h.current).symm hs.returned hfits
      (by simp [hw])
  | store w d hw hkind hd =>
    have hfits := (hw ▸ hs.fits w).store (by simp [takes, hkind, hd])
    exact hs.update rfl rfl rfl rfl (Function.update_eq_self w h.current).symm hs.returned hfits
      (by simp [hw])
  | snapshot w d hw =>
    refine hs.update rfl rfl rfl rfl rfl hs.returned ((hs.fits w).snapshot hw hs.list.nodup) ?_
    intro d' p rest hsend
    rw [hsend] at hw
    exact absurd hw (by cases kind <;> simp [Pc.ready])
  | next w d p rest r hw hr =>
    have hrecord : record s (.next w) { s with
        writes := Function.update s.writes w (.sending d p rest)
        receivers := Function.update s.receivers p r } h =
      { h with
        current := Function.update h.current w
          ((h.current w).map fun e => { e with delivered := e.delivered ++ [(p, d)] }) } := by
      simp [record, hw]
    rw [hrecord]
    refine hs.send hr (hw ▸ hs.fits w).next (fun q hq => ?_) fun _ => ⟨d, rest, rfl⟩
    obtain ⟨d', rest', hsend⟩ := hs.calls w q hq
    rw [hw] at hsend
    exact absurd hsend (by simp)
  | receive w step d p rest r hw hr =>
    have hsend := hs.send hr ((hw ▸ hs.fits w).resume (r.writers (.inl w))) (fun q hq => ?_)
      fun hpc => ⟨d, rest, ?_⟩
    · rwa [Function.update_eq_self] at hsend
    · obtain ⟨d', rest', hq⟩ := hs.calls w q hq
      rw [hw] at hq
      exact (Pc.sending.inj hq).2.1.symm
    · cases hwriter : r.writers (.inl w) with
      | idle => exact absurd hwriter hpc
      | _ => rfl
  | finish w d hw =>
    refine hs.update rfl rfl rfl rfl rfl (fun e he htakes => ?_) .idle (by simp [hw])
    rcases List.mem_append.mp he with he | he
    · exact hs.returned e he htakes
    · have hfits := hs.fits w
      rw [hw, Option.mem_toList.mp he] at hfits
      exact hfits.finish
  | returns w hw =>
    refine hs.update rfl rfl rfl rfl rfl (fun e he htakes => ?_) .idle (by simp [hw])
    rcases List.mem_append.mp he with he | he
    · exact hs.returned e he htakes
    · have hfits := hs.fits w
      rw [hw, Option.mem_toList.mp he] at hfits
      cases hfits with
      | returning d hd => exact absurd htakes (by simp [hd])
  | other v p step r hr => exact hs.other hr

variable {q : State P T W V × History P T W}

theorem holds (hq : (observed kind isNan accepts zero).Reachable q) : Holds kind isNan q.1 q.2 := by
  refine hq.invariant (I := fun q => Holds kind isNan q.1 q.2) ⟨?_, ?_⟩
  · rintro ⟨s, h⟩ ⟨rfl, rfl⟩
    refine ⟨Reflects.nil, fun w => .idle, by simp, by simp, fun p => ⟨[], ?_⟩⟩
    simp [Signals.WritePc.checking]
  · rintro ⟨s, h⟩ a ⟨t, h'⟩ hs - hstep
    obtain ⟨hst, hrecord⟩ := Machine.withHistory_step.mp hstep
    dsimp only at hrecord
    subst hrecord
    exact hs.step (steps hst)

/-! ## The list, the deliveries and the statistics -/

/-- What a state owes to the writes and the calls on the list before it. -/
structure Delivers (kind : Kind) (isNan : T → Bool) (s : State P T W V) (h : History P T W) :
    Prop where
  /-- distinct ports -/
  nodup : s.connections.Nodup
  /-- those with a connect that nothing has taken back -/
  connected (p : P) : p ∈ s.connections ↔ ∃ i, Stays h.edits p i
  /-- in the order of their first connect since they were last absent -/
  order : s.connections.Pairwise (ComesBefore h.edits)
  /-- a write that has returned has sent an accepted datum to every port of its list, -/
  returned (e : Delivery P T) : e ∈ h.returned → takes kind isNan e.datum = true → e.ToAll
  /-- and one that is under way to the first of them -/
  underway (w : W) (e : Delivery P T) (targets : List P) : h.current w = some e →
    e.snapshot = some targets →
      targets.Nodup ∧ e.delivered <+: targets.map fun p => (p, e.datum)
  counted (p : P) : AllReturned s → (s.receivers p).port.totalMessages =
    (s.receivers p).port.validMessages + (s.receivers p).port.invalidMessages

/-- **Every write sends its datum to each port of the list that it took, once and in order**,
whatever happens to the list; the list keeps the order of the connects; and once all writes have
returned the statistics of every input port add up. -/
theorem delivers_snapshot (kind : Kind) (isNan : T → Bool) (accepts : P → T → Bool) (zero : T)
    (hq : (observed kind isNan accepts zero).Reachable q) : Delivers kind isNan q.1 q.2 := by
  have hs := holds hq
  refine ⟨hs.list.nodup, hs.list.mem_iff, hs.list.order, hs.returned, ?_, fun p hall => ?_⟩
  · intro w e targets he htargets
    exact (he ▸ hs.fits w).delivered htargets
  · refine (hs.counted p).of_idle fun c => ?_
    cases c with
    | inl w =>
      by_contra hcall
      obtain ⟨d, rest, hw⟩ := hs.calls w p hcall
      rw [hall.writes w] at hw
      exact absurd hw (by simp)
    | inr v => exact hall.others v p

/-- Two ports are connected; in the callback of the first one, which the write reaches first, the
second is disconnected. -/
def editedMeanwhile : List (Label ℕ ℕ ℕ ℕ) :=
  let received := [.receive 0 .validate, .receive 0 .store, .receive 0 .raise]
  [.call (.connect (some 0)), .call (.connect (some 1)), .call (.connect (some 0)), .write 0 7,
    .check 0, .snapshot 0, .next 0] ++ received ++ [.call (.disconnect (some 1)),
    .receive 0 .finish, .next 0] ++ received ++ [.receive 0 .finish, .finish 0]

/-- The write of that run reaches both ports. -/
theorem delivers_snapshot_editedMeanwhile :
    ∃ q : State ℕ ℕ ℕ ℕ × History ℕ ℕ ℕ,
      (observed .OutputPort (fun _ => false) (fun _ _ => true) (0 : ℕ)).Reachable q ∧
        q.1.connections = [0] ∧ q.2.returned.map Delivery.delivered = [[(0, 7), (1, 7)]] ∧
        Delivers .OutputPort (fun _ => false) q.1 q.2 := by
  let start : State ℕ ℕ ℕ ℕ × History ℕ ℕ ℕ :=
    ({ currentData := 0
       writes := fun _ => .idle
       receivers := fun _ => { port := { data := 0 }, writers := fun _ => .idle, consumer := () } },
      { current := fun _ => none })
  have hinit : (observed .OutputPort (fun _ => false) (fun _ _ => true) (0 : ℕ)).init start :=
    ⟨rfl, rfl⟩
  have hexec : ((observed .OutputPort (fun _ => false) (fun _ _ => true) (0 : ℕ)).exec start
      editedMeanwhile).any (fun q => q.1.connections = [0] ∧
        q.2.returned.map Delivery.delivered = [[(0, 7), (1, 7)]]) = true := by decide +kernel
  obtain ⟨q, hq, hfacts⟩ := (Option.any_eq_true _ _).mp hexec
  obtain ⟨hconnections, hdelivered⟩ := of_decide_eq_true hfacts
  have hreach := Machine.Reachable.exec (.init hinit) hq
  exact ⟨q, hreach, hconnections, hdelivered,
    delivers_snapshot .OutputPort (fun _ => false) (fun _ _ => true) 0 hreach⟩

end Connections

end AxonVex
