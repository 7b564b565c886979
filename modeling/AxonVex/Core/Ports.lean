import AxonVex.Machinery.Table
import Mathlib.Data.Int.Notation

/-!
# Core/Ports — ports, connections and processing units

A `ProcessingUnit` owns its ports; a `BasePort*` is read as the triple of its owner, its kind and
its index, which `createInputPort` and its siblings keep unique within a unit.  Connections are
pointers kept on the writing side only: an output port lists the input ports it dispatches to, and
an input port knows nothing of its writers.

A port of type `InputPort<T>` is a port of kind `SYNC_INPUT` whose data type is `T`; `tryConnect`
and the casts of `connectToSystem` read exactly these two.
-/

namespace AxonVex

open Machinery

/-- The address of a `ProcessingUnit`. -/
abbrev UnitPtr := ℕ

/-- `PortType`. -/
inductive PortType
  | syncInput | syncOutput | asyncInput | asyncOutput
  deriving DecidableEq, Repr

/-- `BasePort*`: the port of `owner` of kind `type` at index `id`. -/
structure PortPtr where
  owner : UnitPtr
  type : PortType
  id : ℤ
  deriving DecidableEq, Repr

/-- The reading side, `InputPort<T>` or `AsyncInputPort<T>`; `dataTypeName` stands for `T`. -/
structure InPort where
  name : String
  dataTypeName : String
  hasNewData : Bool := false
  totalMessages : ℕ := 0
  validMessages : ℕ := 0
  invalidMessages : ℕ := 0
  deriving DecidableEq, Repr

/-- The writing side, `OutputPort<T>` or `AsyncOutputPort<T>`, with its connection list. -/
structure OutPort where
  name : String
  dataTypeName : String
  totalMessages : ℕ := 0
  connections : List PortPtr := []
  deriving DecidableEq, Repr

namespace InPort

/-- `writeData(data)` and `update(data)`: `accepted` says whether the validation callback and the
NaN check let the data through. -/
def writeData (p : InPort) (accepted : Bool) : InPort :=
  if accepted then
    { p with
      totalMessages := p.totalMessages + 1
      validMessages := p.validMessages + 1
      hasNewData := true }
  else
    { p with
      totalMessages := p.totalMessages + 1
      invalidMessages := p.invalidMessages + 1 }

end InPort

namespace OutPort

variable (p : OutPort) (target : PortPtr)

/-- `connect(inputPort)`: a port already in the list is not added again. -/
def connect : OutPort :=
  if target ∈ p.connections then p else { p with connections := p.connections ++ [target] }

/-- `disconnect(inputPort)`. -/
def disconnect : OutPort := { p with connections := p.connections.erase target }

/-- `disconnectAll()`. -/
def disconnectAll : OutPort := { p with connections := [] }

variable {p target} {q : PortPtr}

@[simp] theorem mem_connect : q ∈ (p.connect target).connections ↔ q ∈ p.connections ∨ q = target := by
  unfold connect
  split
  next h => exact ⟨.inl, fun hq => hq.elim id fun e => e ▸ h⟩
  next h => simp

theorem mem_of_mem_disconnect (h : q ∈ (p.disconnect target).connections) : q ∈ p.connections :=
  List.mem_of_mem_erase h

end OutPort

/-! ## Processing units -/

inductive ExecutionState
  | uninitialized
  | initialized
  | running
  | stopped
  | disabled
  | error
  deriving DecidableEq, Repr

/-- `ProcessingUnit`: its address, its name and its four port maps. -/
structure ProcessingUnit where
  ptr : UnitPtr
  name : String
  inputPorts : Table ℤ InPort := ∅
  outputPorts : Table ℤ OutPort := ∅
  asyncInputPorts : Table ℤ InPort := ∅
  asyncOutputPorts : Table ℤ OutPort := ∅
  downSamplingFactor : ℤ := 1

namespace ProcessingUnit

variable (u : ProcessingUnit)

/-- `ControlPorts::RESET`. -/
def resetPort : ℤ := 1000

/-- `ControlPorts::DISABLE`. -/
def disablePort : ℤ := 1001

/-- The constructor: a unit is born with its two control ports. -/
def new (ptr : UnitPtr) (name : String) : ProcessingUnit where
  ptr := ptr
  name := name
  asyncInputPorts :=
    ((∅ : Table ℤ InPort).insert resetPort ⟨"Reset", "int", false, 0, 0, 0⟩).insert disablePort
      ⟨"Disable", "int", false, 0, 0, 0⟩

/-- `createInputPort<T>(idx, name)`: an index that is taken throws. -/
def createInputPort (idx : ℤ) (name dataTypeName : String) : Option ProcessingUnit :=
  if idx ∈ u.inputPorts then none
  else some { u with inputPorts := u.inputPorts.insert idx ⟨name, dataTypeName, false, 0, 0, 0⟩ }

/-- `createOutputPort<T>(idx, name)`. -/
def createOutputPort (idx : ℤ) (name dataTypeName : String) : Option ProcessingUnit :=
  if idx ∈ u.outputPorts then none
  else some { u with outputPorts := u.outputPorts.insert idx ⟨name, dataTypeName, 0, []⟩ }

/-- `createAsyncInputPort<T>(idx, name)`. -/
def createAsyncInputPort (idx : ℤ) (name dataTypeName : String) : Option ProcessingUnit :=
  if idx ∈ u.asyncInputPorts then none
  else some { u with
    asyncInputPorts := u.asyncInputPorts.insert idx ⟨name, dataTypeName, false, 0, 0, 0⟩ }

/-- `createAsyncOutputPort<T>(idx, name)`. -/
def createAsyncOutputPort (idx : ℤ) (name dataTypeName : String) : Option ProcessingUnit :=
  if idx ∈ u.asyncOutputPorts then none
  else some { u with
    asyncOutputPorts := u.asyncOutputPorts.insert idx ⟨name, dataTypeName, 0, []⟩ }

/-- The reading port of the unit that a pointer names. -/
def inPort? (p : PortPtr) : Option InPort :=
  match p.type with
  | .syncInput => u.inputPorts.lookup p.id
  | .asyncInput => u.asyncInputPorts.lookup p.id
  | .syncOutput => none
  | .asyncOutput => none

/-- The writing port of the unit that a pointer names. -/
def outPort? (p : PortPtr) : Option OutPort :=
  match p.type with
  | .syncOutput => u.outputPorts.lookup p.id
  | .asyncOutput => u.asyncOutputPorts.lookup p.id
  | .syncInput => none
  | .asyncInput => none

/-- The unit with one writing port changed. -/
def modifyOut (p : PortPtr) (f : OutPort → OutPort) : ProcessingUnit :=
  match p.type with
  | .syncOutput => { u with outputPorts := u.outputPorts.modify p.id f }
  | .asyncOutput => { u with asyncOutputPorts := u.asyncOutputPorts.modify p.id f }
  | .syncInput => u
  | .asyncInput => u

/-- The unit with one reading port changed. -/
def modifyIn (p : PortPtr) (f : InPort → InPort) : ProcessingUnit :=
  match p.type with
  | .syncInput => { u with inputPorts := u.inputPorts.modify p.id f }
  | .asyncInput => { u with asyncInputPorts := u.asyncInputPorts.modify p.id f }
  | .syncOutput => u
  | .asyncOutput => u

end ProcessingUnit

end AxonVex
