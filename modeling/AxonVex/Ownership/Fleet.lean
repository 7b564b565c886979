import AxonVex.Machinery.Machine
import AxonVex.Machinery.References
import AxonVex.Spec.Initialize

/-!
# Ownership/Fleet — systems, their units, and the connections between the units

    system k ──owns──▸ unit ──has──▸ output port ──lists──▸ input port ◂──has── unit ◂──owns── system l

A connection is a pointer on the writing side; the unit that is written to knows nothing of it, nor
does the system that owns and destroys that unit.  A `Fleet` is any number of systems, with the units
that no system has taken over yet.  A unit has an address of its own, so an address that has been
destroyed never names a live unit again.

The operations are those of the systems and of the ports, one after the other; a port that is passed
to one is a port of a live unit.  A load of a spec is one operation, its rollback included.
-/

namespace AxonVex

open Machinery

/-- A unit as its constructor leaves it: no port is connected. -/
structure NewUnit where
  unit : ProcessingUnit
  unwired : unit.targets = []

/-- Systems and units. -/
structure Fleet where
  systems : List AxonVexSystem
  /-- the units that no system owns -/
  free : Table UnitPtr ProcessingUnit := ∅
  /-- the first address not yet given to a unit -/
  nextPtr : UnitPtr := 0
  /-- the ports of destroyed units that were written to -/
  strayed : List PortPtr := []

namespace Fleet

/-- The operations, each with the system or the ports it is about. -/
inductive Label
  | create (unit : NewUnit)
  | register (k : ℕ) (unit : UnitPtr) (constraints : TimingConstraints) (now : TimePoint)
  | unregister (k unitId : ℕ)
  | assignInput (k : ℕ) (name : String) (unit : UnitPtr) (unitPortId : ℤ)
  | assignOutput (k : ℕ) (name : String) (unit : UnitPtr) (unitPortId : ℤ)
  | removeInput (k : ℕ) (name : String)
  | removeOutput (k : ℕ) (name : String)
  /-- `tryConnect`, or `connect` between ports of one data type -/
  | connect (source target : PortPtr)
  | disconnect (source target : PortPtr)
  | disconnectAll (source : PortPtr)
  | connectToSystem (T : String) (k : ℕ) (output : String) (l : ℕ) (input : String)
  | disconnectFromSystem (T : String) (k : ℕ) (output : String) (l : ℕ) (input : String)
  /-- the data is no NaN if `valid`, and the ports that `accepts` names accept it -/
  | write (source : PortPtr) (valid : Bool) (accepts : PortPtr → Bool)
  | load (k : ℕ) (x : SpecLoad)
  | start (k : ℕ) (caller : Thread) (env : AxonVexSystem.StartEnv)
  | pause (k : ℕ)
  | resume (k : ℕ)
  | stop (k : ℕ) (caller : Thread)

variable (F : Fleet)

/-! ## Units and ports -/

/-- The unit at an address, wherever it is. -/
def unitAt (ptr : UnitPtr) : Option ProcessingUnit :=
  (F.free.lookup ptr).or (F.systems.findSome? (·.unitRegistry.unitAt ptr))

/-- A unit is changed in place, wherever it is. -/
def modifyUnit (ptr : UnitPtr) (f : ProcessingUnit → ProcessingUnit) : Fleet :=
  { F with
    free := F.free.modify ptr f
    systems := F.systems.map (·.modifyUnit ptr f) }

/-- A writing port is changed in place. -/
def modifyOut (p : PortPtr) (f : OutPort → OutPort) : Fleet :=
  F.modifyUnit p.owner (·.modifyOut p f)

def outPort? (p : PortPtr) : Option OutPort := (F.unitAt p.owner).bind (·.outPort? p)

def inPort? (p : PortPtr) : Option InPort := (F.unitAt p.owner).bind (·.inPort? p)

/-- `source->tryConnect(target)`: the target must be a reading port of the source's kind and of its
data type. -/
def tryConnect (source target : PortPtr) : Fleet :=
  match F.outPort? source, F.inPort? target with
  | some p, some q =>
    if source.type.peer = some target.type ∧ p.dataTypeName = q.dataTypeName then
      F.modifyOut source (·.connect target)
    else F
  | _, _ => F

/-- `source->disconnect(target)`. -/
def disconnect (source target : PortPtr) : Fleet := F.modifyOut source (·.disconnect target)

/-- The two system ports of these names, if they are an `OutputPort<T>` and an `InputPort<T>`. -/
def systemPorts? (T : String) (k : ℕ) (output : String) (l : ℕ) (input : String) :
    Option (PortPtr × PortPtr) :=
  F.systems[k]?.bind fun s => F.systems[l]?.bind fun t =>
    (s.systemPorts.outputs.lookup output).bind fun source =>
      (t.systemPorts.inputs.lookup input).bind fun target =>
        if source.type = .syncOutput ∧ (F.outPort? source).map (·.dataTypeName) = some T ∧
            target.type = .syncInput ∧ (F.inPort? target).map (·.dataTypeName) = some T then
          some (source, target)
        else none

/-- `s.connectToSystem<T>(output, &t, input)`. -/
def connectToSystem (T : String) (k : ℕ) (output : String) (l : ℕ) (input : String) : Fleet :=
  match F.systemPorts? T k output l input with
  | some (source, target) => F.tryConnect source target
  | none => F

/-- `s.disconnectFromSystem<T>(output, &t, input)`. -/
def disconnectFromSystem (T : String) (k : ℕ) (output : String) (l : ℕ) (input : String) : Fleet :=
  match F.systemPorts? T k output l input with
  | some (source, target) => F.disconnect source target
  | none => F

/-- `inputPort->writeData(data)`, on a port of the list. -/
def deliver (accepts : PortPtr → Bool) (target : PortPtr) : Fleet :=
  match F.unitAt target.owner with
  | some _ => F.modifyUnit target.owner (·.modifyIn target (·.writeData (accepts target)))
  | none => { F with strayed := F.strayed ++ [target] }

/-- `source->write(data)`: a synchronous port counts a NaN and drops it. -/
def write (source : PortPtr) (valid : Bool) (accepts : PortPtr → Bool) : Fleet :=
  match F.outPort? source with
  | none => F
  | some p =>
    let F := F.modifyOut source fun p => { p with totalMessages := p.totalMessages + 1 }
    if valid || source.type == .asyncOutput then
      p.connections.foldl (fun F target => F.deliver accepts target) F
    else F

/-! ## Systems -/

/-- An operation of one of the systems. -/
def onSystem (k : ℕ) (f : AxonVexSystem → AxonVexSystem) : Option Fleet :=
  F.systems[k]?.map fun s => { F with systems := F.systems.set k (f s) }

/-- An operation that may not return. -/
def onSystem? {α : Type} (k : ℕ) (f : AxonVexSystem → Outcome (AxonVexSystem × α)) : Option Fleet :=
  F.systems[k]?.bind fun s => (f s).toOption.map fun r =>
    { F with systems := F.systems.set k r.1 }

/-- A system takes a unit over; a unit that it refuses is destroyed. -/
def register (k : ℕ) (ptr : UnitPtr) (constraints : TimingConstraints) (now : TimePoint) :
    Option Fleet :=
  (F.free.lookup ptr).bind fun unit => F.systems[k]?.map fun s =>
    { F with
      free := F.free.erase ptr
      systems := F.systems.set k (s.registerProcessingUnit unit constraints now).1 }

/-- A system is initialized from a spec. -/
def load (k : ℕ) (x : SpecLoad) : Option Fleet :=
  F.systems[k]?.bind fun s => (x.run F.nextPtr s).toOption.map fun r =>
    { F with
      systems := F.systems.set k r.1
      nextPtr := F.nextPtr + x.spec.units.length }

def step : Label → Option Fleet
  | .create unit => some { F with
      free := F.free.insert F.nextPtr { unit.unit with ptr := F.nextPtr }
      nextPtr := F.nextPtr + 1 }
  | .register k unit constraints now => F.register k unit constraints now
  | .unregister k unitId => F.onSystem k fun s => (s.unregisterProcessingUnit unitId).1
  | .assignInput k name unit unitPortId =>
    F.onSystem k fun s => (s.assignSystemInputPort name unit unitPortId).1
  | .assignOutput k name unit unitPortId =>
    F.onSystem k fun s => (s.assignSystemOutputPort name unit unitPortId).1
  | .removeInput k name => F.onSystem k fun s => (s.removeSystemInputPort name).1
  | .removeOutput k name => F.onSystem k fun s => (s.removeSystemOutputPort name).1
  | .connect source target => some (F.tryConnect source target)
  | .disconnect source target => some (F.disconnect source target)
  | .disconnectAll source => some (F.modifyOut source (·.disconnectAll))
  | .connectToSystem T k output l input => some (F.connectToSystem T k output l input)
  | .disconnectFromSystem T k output l input => some (F.disconnectFromSystem T k output l input)
  | .write source valid accepts => some (F.write source valid accepts)
  | .load k x => F.load k x
  | .start k caller env => F.onSystem? k (·.start caller env)
  | .pause k => F.onSystem k fun s => s.pause.1
  | .resume k => F.onSystem k fun s => s.resume.1
  | .stop k caller => F.onSystem k fun s => (s.stop caller).1

/-- The systems are new, and there are no units. -/
def machine : Machine Fleet Label where
  init F := (∀ s ∈ F.systems, ∃ config objectSize, s = .new config objectSize) ∧
    F.free = ∅ ∧ F.strayed = []
  step := step

/-! ## What is live -/

/-- A unit is held by a system, or outside of all of them (`none`). -/
def HeldAt : Option ℕ → ProcessingUnit → Prop
  | none, u => F.free.lookup u.ptr = some u
  | some k, u => ∃ s, F.systems[k]? = some s ∧ u ∈ s.unitRegistry.all

/-- The live units. -/
def units : Set ProcessingUnit := {u | ∃ place, F.HeldAt place u}

/-- The units whose ports the ports of a unit are connected to. -/
def references (u : ProcessingUnit) : Set UnitPtr := {ptr | ∃ q ∈ u.targets, q.owner = ptr}

/-- **No live unit lists a port of a destroyed one**, and no such port has been written to. -/
structure Sound : Prop where
  closed : Closed ProcessingUnit.ptr references F.units
  written : F.strayed = []

/-- No other live unit lists a port of the unit at this address. -/
def Unlisted (ptr : UnitPtr) : Prop :=
  ∀ u ∈ F.units, u.ptr ≠ ptr → ∀ q ∈ u.targets, q.owner ≠ ptr

/-- **A unit is destroyed only when no other lists a port of it**: when it is unregistered, and when
a system that is full refuses it. -/
def Spares : Label → Prop
  | .unregister k unitId =>
    ∀ s u, F.systems[k]? = some s → s.unitRegistry.find unitId = some u → F.Unlisted u.ptr
  | .register k unit _ _ =>
    ∀ s, F.systems[k]? = some s → s.unitRegistry.maxUnits ≤ s.unitRegistry.count → F.Unlisted unit
  | _ => True

end Fleet

end AxonVex
