import AxonVex.Core.Ports
import AxonVex.Machinery.Machine

/-!
# Units/PortUids — the UIDs of the ports of a unit

    port UID = block UID * 256 + index        in 32 bits

The four maps of a unit have an index space each, so ports of different kinds at one index have one
UID, and only those (`uid_eq_iff`).  Of two units, the ports differ where the last eight bits are all
that the indices differ in, and the block UIDs differ in their last 24 bits (`uid_ne`).
-/

namespace AxonVex

open Machinery

namespace Units

/-- `uid * 256 + idx`, as `uint32_t`. -/
def uid (blockUID : BitVec 32) (idx : ℤ) : BitVec 32 := blockUID * 256 + BitVec.ofInt 32 idx

/-- A number that `int` holds. -/
def IsInt (idx : ℤ) : Prop := -2147483648 ≤ idx ∧ idx < 2147483648

theorem isInt_toInt (idx : BitVec 32) : IsInt idx.toInt :=
  ⟨by have := BitVec.le_toInt idx; omega, by have := BitVec.toInt_lt (x := idx); omega⟩

/-- **Within a unit the index tells.** -/
theorem uid_eq_iff (blockUID : BitVec 32) {i j : ℤ} (hi : IsInt i) (hj : IsInt j) :
    uid blockUID i = uid blockUID j ↔ i = j := by
  refine ⟨fun h => ?_, fun h => by rw [h]⟩
  have hofInt : BitVec.ofInt 32 i = BitVec.ofInt 32 j := by simpa [uid] using h
  have hmod := congrArg BitVec.toNat hofInt
  simp only [BitVec.toNat_ofInt] at hmod
  have := hi.1
  have := hi.2
  have := hj.1
  have := hj.2
  omega

/-- **Of two units the block UIDs tell**, among the indices of one block of 256. -/
theorem uid_ne {b c : BitVec 32} {i j : ℤ} (hbc : b.toNat % 16777216 ≠ c.toNat % 16777216)
    (hij : i / 256 = j / 256) : uid b i ≠ uid c j := by
  intro h
  have hmod := congrArg BitVec.toNat h
  have h256 : (256 : BitVec 32).toNat = 256 := rfl
  simp only [uid, BitVec.toNat_add, BitVec.toNat_mul, BitVec.toNat_ofInt, h256] at hmod
  omega

/-! ## Units -/

/-- A unit, its `blockUID_`, and the `portUID_` of its ports. -/
structure NumberedUnit where
  unit : ProcessingUnit
  blockUID : BitVec 32 := 0
  portUID : PortType → ℤ → BitVec 32 := fun _ _ => 0

namespace NumberedUnit

/-- The unit has a port of the kind at the index. -/
def HasPort (u : NumberedUnit) (type : PortType) (idx : ℤ) : Prop :=
  match type with
  | .syncInput => idx ∈ u.unit.inputPorts
  | .syncOutput => idx ∈ u.unit.outputPorts
  | .asyncInput => idx ∈ u.unit.asyncInputPorts
  | .asyncOutput => idx ∈ u.unit.asyncOutputPorts

instance (u : NumberedUnit) (type : PortType) (idx : ℤ) : Decidable (u.HasPort type idx) :=
  match type with
  | .syncInput => inferInstanceAs (Decidable (idx ∈ u.unit.inputPorts))
  | .syncOutput => inferInstanceAs (Decidable (idx ∈ u.unit.outputPorts))
  | .asyncInput => inferInstanceAs (Decidable (idx ∈ u.unit.asyncInputPorts))
  | .asyncOutput => inferInstanceAs (Decidable (idx ∈ u.unit.asyncOutputPorts))

/-- `createInputPort` and its siblings, without the UID. -/
def createPort (u : ProcessingUnit) (type : PortType) (idx : ℤ) (name dataTypeName : String) :
    Option ProcessingUnit :=
  match type with
  | .syncInput => u.createInputPort idx name dataTypeName
  | .syncOutput => u.createOutputPort idx name dataTypeName
  | .asyncInput => u.createAsyncInputPort idx name dataTypeName
  | .asyncOutput => u.createAsyncOutputPort idx name dataTypeName

/-- The last lines of `createInputPort` and its siblings: a new port has the UID zero, unless the
unit has one. -/
def numberPort (u : NumberedUnit) (type : PortType) (idx : ℤ) : PortType → ℤ → BitVec 32 :=
  fun type' idx' =>
    if type' = type ∧ idx' = idx then if u.blockUID ≠ 0 then uid u.blockUID idx else 0
    else u.portUID type' idx'

/-- `setBlockUID(uid)`: every port gets its UID. -/
def setBlockUID (u : NumberedUnit) (blockUID : BitVec 32) : NumberedUnit :=
  { u with
    blockUID := blockUID
    portUID := fun _ idx => uid blockUID idx }

end NumberedUnit

inductive UidLabel
  | createPort (type : PortType) (idx : BitVec 32) (name dataTypeName : String)
  | setBlockUID (blockUID : BitVec 32)

/-- A unit from its construction on. -/
def numbering (ptr : UnitPtr) (name : String) : Machine NumberedUnit UidLabel where
  init u := u = { unit := ProcessingUnit.new ptr name }
  step u
    | .createPort type idx name dataTypeName =>
      (NumberedUnit.createPort u.unit type idx.toInt name dataTypeName).map fun unit =>
        { u with
          unit := unit
          portUID := u.numberPort type idx.toInt }
    | .setBlockUID blockUID => some (u.setBlockUID blockUID)

variable {ι : Type*} {u v : NumberedUnit} {a : UidLabel} {ptr : UnitPtr} {name : String}

/-- The ports have `int` indices, and their UIDs once the unit has one. -/
def NumberedUnit.Numbered (u : NumberedUnit) : Prop :=
  ∀ type idx, u.HasPort type idx →
    IsInt idx ∧ (u.blockUID ≠ 0 → u.portUID type idx = uid u.blockUID idx)

/-- `createPort` adds the one port. -/
theorem NumberedUnit.hasPort_createPort {type type' : PortType} {idx idx' : ℤ}
    {name dataTypeName : String} {unit : ProcessingUnit} {uids : PortType → ℤ → BitVec 32}
    (h : createPort u.unit type idx name dataTypeName = some unit)
    (hport : HasPort { u with unit := unit, portUID := uids } type' idx') :
    type' = type ∧ idx' = idx ∨ u.HasPort type' idx' := by
  cases type with
  | syncInput =>
    obtain ⟨-, ⟨⟩⟩ := Option.ite_none_left_eq_some.mp h
    cases type' with
    | syncInput => exact ((AList.mem_insert _).mp hport).imp (fun heq => ⟨rfl, heq⟩) id
    | _ => exact .inr hport
  | syncOutput =>
    obtain ⟨-, ⟨⟩⟩ := Option.ite_none_left_eq_some.mp h
    cases type' with
    | syncOutput => exact ((AList.mem_insert _).mp hport).imp (fun heq => ⟨rfl, heq⟩) id
    | _ => exact .inr hport
  | asyncInput =>
    obtain ⟨-, ⟨⟩⟩ := Option.ite_none_left_eq_some.mp h
    cases type' with
    | asyncInput => exact ((AList.mem_insert _).mp hport).imp (fun heq => ⟨rfl, heq⟩) id
    | _ => exact .inr hport
  | asyncOutput =>
    obtain ⟨-, ⟨⟩⟩ := Option.ite_none_left_eq_some.mp h
    cases type' with
    | asyncOutput => exact ((AList.mem_insert _).mp hport).imp (fun heq => ⟨rfl, heq⟩) id
    | _ => exact .inr hport

theorem NumberedUnit.Numbered.step (h : u.Numbered) (hstep : (numbering ptr name).step u a = some v) :
    v.Numbered := by
  cases a with
  | createPort type idx name dataTypeName =>
    obtain ⟨unit, hunit, rfl⟩ := Option.map_eq_some_iff.mp hstep
    intro type' idx' hport
    by_cases hnew : type' = type ∧ idx' = idx.toInt
    · obtain ⟨rfl, rfl⟩ := hnew
      refine ⟨isInt_toInt idx, fun hblock => ?_⟩
      dsimp only at hblock ⊢
      rw [numberPort, if_pos ⟨rfl, rfl⟩, if_pos hblock]
    · have hold := h type' idx' ((hasPort_createPort hunit hport).resolve_left hnew)
      refine ⟨hold.1, fun hblock => ?_⟩
      dsimp only
      rw [numberPort, if_neg hnew]
      exact hold.2 hblock
  | setBlockUID blockUID =>
    obtain ⟨⟩ := hstep
    exact fun type idx hport => ⟨(h type idx hport).1, fun _ => rfl⟩

theorem NumberedUnit.Numbered.new :
    NumberedUnit.Numbered { unit := ProcessingUnit.new ptr name } := by
  intro type idx hport
  refine ⟨?_, fun hblock => absurd rfl hblock⟩
  cases type with
  | asyncInput =>
    rcases (AList.mem_insert _).mp hport with rfl | hport
    · exact ⟨by decide, by decide⟩
    · rcases (AList.mem_insert _).mp hport with rfl | hport
      · exact ⟨by decide, by decide⟩
      · exact absurd hport (AList.notMem_empty idx)
  | _ => exact absurd hport (by simp [HasPort, ProcessingUnit.new])

theorem numbered (h : (numbering ptr name).Reachable u) : u.Numbered :=
  h.invariant ⟨fun _ hu => hu ▸ .new, fun _ _ _ hu _ hstep => hu.step hstep⟩

/-! ## Sets of units -/

/-- What tells the ports of some units apart: each has the UID that the packing gives it; in one
unit those at one index share it; and between two units none of one block of indices do. -/
structure Distinguished (units : ι → NumberedUnit) : Prop where
  packed (i : ι) (type : PortType) (idx : ℤ) : (units i).HasPort type idx →
    (units i).portUID type idx = uid (units i).blockUID idx
  within (i : ι) (type type' : PortType) (idx idx' : ℤ) : (units i).HasPort type idx →
    (units i).HasPort type' idx' →
      ((units i).portUID type idx = (units i).portUID type' idx' ↔ idx = idx')
  across (i j : ι) (type type' : PortType) (idx idx' : ℤ) : i ≠ j → (units i).HasPort type idx →
    (units j).HasPort type' idx' → idx / 256 = idx' / 256 →
      (units i).portUID type idx ≠ (units j).portUID type' idx'

/-- **The UIDs of the ports of units whose UIDs differ in their last 24 bits.** -/
theorem portUIDs_distinguish (units : ι → NumberedUnit)
    (hunits : ∀ i, ∃ ptr name, (numbering ptr name).Reachable (units i))
    (hset : ∀ i, (units i).blockUID ≠ 0)
    (hdistinct : ∀ i j, i ≠ j →
      (units i).blockUID.toNat % 16777216 ≠ (units j).blockUID.toNat % 16777216) :
    Distinguished units := by
  have hports (i : ι) (type : PortType) (idx : ℤ) (hport : (units i).HasPort type idx) :
      IsInt idx ∧ (units i).portUID type idx = uid (units i).blockUID idx := by
    obtain ⟨ptr, name, hreach⟩ := hunits i
    obtain ⟨hint, huid⟩ := numbered hreach type idx hport
    exact ⟨hint, huid (hset i)⟩
  refine ⟨fun i type idx hport => (hports i type idx hport).2, ?_, ?_⟩
  · intro i type type' idx idx' hport hport'
    obtain ⟨hint, huid⟩ := hports i type idx hport
    obtain ⟨hint', huid'⟩ := hports i type' idx' hport'
    rw [huid, huid', uid_eq_iff _ hint hint']
  · intro i j type type' idx idx' hij hport hport' hblock
    rw [(hports i type idx hport).2, (hports j type' idx' hport').2]
    exact uid_ne (hdistinct i j hij) hblock

/-- The unit that a list of calls makes. -/
def made (labels : List UidLabel) : NumberedUnit :=
  ((numbering 0 "unit").exec { unit := ProcessingUnit.new 0 "unit" } labels).getD
    { unit := ProcessingUnit.new 0 "unit" }

theorem reachable_made (labels : List UidLabel) :
    (numbering 0 "unit").Reachable (made labels) := by
  have hinit : (numbering 0 "unit").init { unit := ProcessingUnit.new 0 "unit" } := rfl
  rw [made]
  cases hexec : (numbering 0 "unit").exec { unit := ProcessingUnit.new 0 "unit" } labels with
  | none => exact .init hinit
  | some u => exact Machine.Reachable.exec (.init hinit) hexec

/-- A unit with an input port and an output port at the index 1. -/
def inputAndOutput (blockUID : BitVec 32) : NumberedUnit :=
  made [.createPort .syncInput 1 "Input" "int", .createPort .syncOutput 1 "Output" "int",
    .setBlockUID blockUID]

theorem portUIDs_distinguish_two :
    Distinguished fun second : Bool => inputAndOutput (if second then 2 else 1) := by
  refine portUIDs_distinguish _ (fun _ => ⟨0, "unit", reachable_made _⟩) (fun second => ?_)
    fun first second hne => ?_
  · cases second <;> decide +kernel
  · revert first second
    decide +kernel

/-- No two ports have one UID. -/
def AllDiffer (units : ι → NumberedUnit) : Prop :=
  ∀ i j type type' idx idx', (units i).HasPort type idx → (units j).HasPort type' idx' →
    (units i).portUID type idx = (units j).portUID type' idx' →
      i = j ∧ type = type' ∧ idx = idx'

/-- Ports of two kinds at one index have one UID; so do a port at the index 256 and one at 0 of the
next unit, ports of units whose UIDs are 2²⁴ apart, and ports made after `setBlockUID(0)`. -/
theorem same_portUID :
    (¬ AllDiffer fun _ : Unit => inputAndOutput 1) ∧
    (¬ AllDiffer fun second : Bool => if second
      then made [.createPort .syncInput 0 "Input" "int", .setBlockUID 2]
      else made [.createPort .syncInput 256 "Input" "int", .setBlockUID 1]) ∧
    (¬ AllDiffer fun second : Bool => inputAndOutput (if second then 16777217 else 1)) ∧
    ¬ AllDiffer fun _ : Unit => made [.setBlockUID 0, .createPort .syncInput 1 "Input" "int",
      .createPort .syncInput 2 "Input" "int"] := by
  refine ⟨fun h => ?_, fun h => ?_, fun h => ?_, fun h => ?_⟩
  · have := h () () .syncInput .syncOutput 1 1 (by decide +kernel) (by decide +kernel)
      (by decide +kernel)
    exact absurd this (by decide)
  · have := h false true .syncInput .syncInput 256 0 (by decide +kernel) (by decide +kernel)
      (by decide +kernel)
    exact absurd this (by decide)
  · have := h false true .syncInput .syncInput 1 1 (by decide +kernel) (by decide +kernel)
      (by decide +kernel)
    exact absurd this (by decide)
  · have := h () () .syncInput .syncInput 1 2 (by decide +kernel) (by decide +kernel)
      (by decide +kernel)
    exact absurd this (by decide)

end Units

end AxonVex
