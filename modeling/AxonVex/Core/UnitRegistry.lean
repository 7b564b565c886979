import AxonVex.Core.Ports

/-!
# Core/UnitRegistry — who owns the processing units

`UnitRegistry` owns every registered unit under an id and keeps the reverse map from addresses to
ids.  A unit is **owned** while it is in the registry; removing it hands the object to the caller,
which destroys it.

`UnitRegistry.Valid` — the two maps agree, and the ids in use are below the counter — is kept by
every operation; from it, a unit's address determines its entry (`Valid.eq_of_ptr`).
-/

namespace AxonVex

open Machinery

/-- `UnitRegistry`. -/
structure UnitRegistry where
  maxUnits : ℕ
  units : Table ℕ ProcessingUnit := ∅
  unitToId : Table UnitPtr ℕ := ∅
  nextUnitId : ℕ := 1

namespace UnitRegistry

variable (r : UnitRegistry)

/-- `add`, and the insertion `addAndRun` begins with: the id of the new unit, or nothing when the
limit is reached (the source throws). -/
def add (unit : ProcessingUnit) : Option (ℕ × UnitRegistry) :=
  if r.maxUnits ≤ r.units.keys.length then none
  else some (r.nextUnitId,
    { r with
      units := r.units.insert r.nextUnitId unit
      unitToId := r.unitToId.insert unit.ptr r.nextUnitId
      nextUnitId := r.nextUnitId + 1 })

/-- `remove(id)`: the owned unit, handed to the caller. -/
def remove (id : ℕ) : Option (ProcessingUnit × UnitRegistry) :=
  (r.units.lookup id).map fun unit =>
    (unit, { r with units := r.units.erase id, unitToId := r.unitToId.erase unit.ptr })

/-- `find(id)`. -/
def find (id : ℕ) : Option ProcessingUnit := r.units.lookup id

/-- `idOf(unit)`. -/
def idOf (unit : UnitPtr) : Option ℕ := r.unitToId.lookup unit

/-- `all()`: the owned units; `forEach` walks the same list. -/
def all : List ProcessingUnit := r.units.values

/-- `count()`. -/
def count : ℕ := r.units.keys.length

/-- `clear()`: the owned units go to the caller, and the id counter stays. -/
def clear : UnitRegistry := { r with units := ∅, unitToId := ∅ }

/-- `resetIds()`. -/
def resetIds : UnitRegistry := { r with nextUnitId := 1 }

/-! ## Ownership -/

/-- The unit at an address is owned by the registry. -/
def Owns (ptr : UnitPtr) : Prop := ∃ id u, r.units.lookup id = some u ∧ u.ptr = ptr

/-- The owned unit at an address. -/
def unitAt (ptr : UnitPtr) : Option ProcessingUnit := (r.idOf ptr).bind r.find

/-- The two maps are inverse to each other. -/
def Agree (units : Table ℕ ProcessingUnit) (unitToId : Table UnitPtr ℕ) : Prop :=
  ∀ ptr id, unitToId.lookup ptr = some id ↔ ∃ u, units.lookup id = some u ∧ u.ptr = ptr

/-- The two maps agree, and ids are taken from below the counter. -/
structure Valid : Prop where
  fresh : ∀ id ∈ r.units, id < r.nextUnitId
  agree : ∀ ptr id, r.unitToId.lookup ptr = some id ↔ ∃ u, r.units.lookup id = some u ∧ u.ptr = ptr

variable {r} {s : UnitRegistry} {id id' : ℕ} {u v : ProcessingUnit} {ptr : UnitPtr}

theorem owns_iff_mem_all : r.Owns ptr ↔ ∃ u ∈ r.all, u.ptr = ptr := by
  simp only [Owns, all, AList.mem_values]
  constructor
  · rintro ⟨id, u, hu, hp⟩
    exact ⟨u, ⟨id, hu⟩, hp⟩
  · rintro ⟨u, ⟨id, hu⟩, hp⟩
    exact ⟨id, u, hu, hp⟩

namespace Agree

variable {units : Table ℕ ProcessingUnit} {unitToId : Table UnitPtr ℕ}

theorem eq_of_ptr (h : Agree units unitToId) (hu : units.lookup id = some u)
    (hv : units.lookup id' = some v) (hp : u.ptr = v.ptr) : id = id' := by
  have h1 := (h u.ptr id).mpr ⟨u, hu, rfl⟩
  have h2 := (h u.ptr id').mpr ⟨v, hv, hp.symm⟩
  exact Option.some.inj (h1.symm.trans h2)

/-- Under an id that is not in use, a unit at a new address. -/
theorem insert (h : Agree units unitToId) (hfree : units.lookup id = none)
    (hnew : ∀ i v, units.lookup i = some v → v.ptr ≠ u.ptr) :
    Agree (units.insert id u) (unitToId.insert u.ptr id) := by
  intro ptr i
  rw [AList.lookup_insert_eq_some]
  simp only [AList.lookup_insert_eq_some]
  constructor
  · rintro (⟨rfl, rfl⟩ | ⟨-, hlk⟩)
    · exact ⟨u, .inl ⟨rfl, rfl⟩, rfl⟩
    · obtain ⟨v, hv, hp⟩ := (h ptr i).mp hlk
      refine ⟨v, .inr ⟨?_, hv⟩, hp⟩
      rintro rfl
      exact absurd hv (by simp [hfree])
  · rintro ⟨v, ⟨rfl, rfl⟩ | ⟨-, hv⟩, hp⟩
    · exact .inl ⟨hp.symm, rfl⟩
    · refine .inr ⟨?_, (h ptr i).mpr ⟨v, hv, hp⟩⟩
      rintro rfl
      exact hnew i v hv hp

theorem erase (h : Agree units unitToId) (hu : units.lookup id = some u) :
    Agree (units.erase id) (unitToId.erase u.ptr) := by
  intro ptr i
  rw [AList.lookup_erase_eq_some, h]
  simp only [AList.lookup_erase_eq_some]
  constructor
  · rintro ⟨hne, v, hv, hp⟩
    refine ⟨v, ⟨?_, hv⟩, hp⟩
    rintro rfl
    obtain rfl : u = v := Option.some.inj (hu.symm.trans hv)
    exact hne hp.symm
  · rintro ⟨v, ⟨hne, hv⟩, hp⟩
    refine ⟨?_, v, hv, hp⟩
    rintro rfl
    exact hne (h.eq_of_ptr hv hu hp)

end Agree

namespace Valid

theorem owns_iff (hr : r.Valid) : r.Owns ptr ↔ (r.idOf ptr).isSome := by
  rw [Option.isSome_iff_exists]
  exact exists_congr fun id => (hr.agree ptr id).symm

/-- **An address determines its entry.** -/
theorem eq_of_ptr (hr : r.Valid) (hu : r.units.lookup id = some u)
    (hv : r.units.lookup id' = some v) (h : u.ptr = v.ptr) : id = id' :=
  Agree.eq_of_ptr hr.agree hu hv h

/-- The owned units have different addresses. -/
theorem nodup_ptrs (hr : r.Valid) : (r.all.map (·.ptr)).Nodup := by
  rw [all, AList.values, List.map_map]
  refine List.Nodup.map_on (fun e he e' he' hptr => ?_) r.units.nodupKeys.nodup
  obtain ⟨id, u⟩ := e
  obtain ⟨id', u'⟩ := e'
  have hu : r.units.lookup id = some u := AList.mem_lookup_iff.mpr he
  have hu' : r.units.lookup id' = some u' := AList.mem_lookup_iff.mpr he'
  obtain rfl := hr.eq_of_ptr hu hu' hptr
  obtain rfl := Option.some.inj (hu.symm.trans hu')
  rfl

end Valid

/-- A fresh registry is valid. -/
theorem valid_new (maxUnits : ℕ) : Valid { maxUnits := maxUnits } where
  fresh := by simp
  agree := by simp

theorem valid_clear (r : UnitRegistry) : r.clear.Valid where
  fresh := by simp [UnitRegistry.clear]
  agree := by simp [UnitRegistry.clear]

@[simp] theorem clear_units : r.clear.units = ∅ := rfl

@[simp] theorem not_owns_clear : ¬ r.clear.Owns ptr := by simp [Owns]

@[simp] theorem owns_resetIds : r.resetIds.Owns ptr ↔ r.Owns ptr := Iff.rfl

/-- The reset of the counter is sound on an empty registry. -/
theorem Valid.resetIds (hr : r.Valid) (h : r.units = ∅) : r.resetIds.Valid where
  fresh := by simp [UnitRegistry.resetIds, h]
  agree := hr.agree

/-! ## What `add` and `remove` do to the entries -/

theorem lookup_add (h : r.add u = some (id, s)) :
    id = r.nextUnitId ∧ s.units = r.units.insert id u ∧ s.nextUnitId = id + 1 ∧
      s.unitToId = r.unitToId.insert u.ptr id ∧ s.maxUnits = r.maxUnits := by
  unfold add at h
  split at h
  · cases h
  · obtain ⟨rfl, rfl⟩ := Prod.mk.inj (Option.some.inj h)
    exact ⟨rfl, rfl, rfl, rfl, rfl⟩

theorem lookup_remove (h : r.remove id = some (u, s)) :
    r.units.lookup id = some u ∧ s.units = r.units.erase id ∧
      s.unitToId = r.unitToId.erase u.ptr ∧ s.nextUnitId = r.nextUnitId ∧
      s.maxUnits = r.maxUnits := by
  obtain ⟨v, hv, ⟨⟩⟩ := Option.map_eq_some_iff.mp h
  exact ⟨hv, rfl, rfl, rfl, rfl⟩

/-- Registering a unit at a new address keeps the maps in step. -/
theorem Valid.add (hr : r.Valid) (hnew : ¬ r.Owns u.ptr) (h : r.add u = some (id, s)) :
    s.Valid := by
  obtain ⟨rfl, hunits, hnext, hids, -⟩ := lookup_add h
  have hfree : r.units.lookup r.nextUnitId = none :=
    AList.lookup_eq_none.mpr fun hm => lt_irrefl _ (hr.fresh _ hm)
  refine ⟨fun i hi => ?_, ?_⟩
  · rw [hunits, AList.mem_insert] at hi
    rw [hnext]
    rcases hi with rfl | hi
    · exact Nat.lt_succ_self _
    · exact Nat.lt_succ_of_lt (hr.fresh i hi)
  · rw [hids, hunits]
    exact Agree.insert hr.agree hfree fun i v hv hp => hnew ⟨i, v, hv, hp⟩

theorem owns_add (h : r.add u = some (id, s)) (hr : r.Valid) :
    s.Owns ptr ↔ r.Owns ptr ∨ ptr = u.ptr := by
  obtain ⟨rfl, hunits, -, -, -⟩ := lookup_add h
  have hfree : r.units.lookup r.nextUnitId = none :=
    AList.lookup_eq_none.mpr fun hm => lt_irrefl _ (hr.fresh _ hm)
  simp only [Owns, hunits, AList.lookup_insert_eq_some]
  constructor
  · rintro ⟨i, v, ⟨rfl, rfl⟩ | ⟨-, hv⟩, hp⟩
    · exact .inr hp.symm
    · exact .inl ⟨i, v, hv, hp⟩
  · rintro (⟨i, v, hv, hp⟩ | rfl)
    · refine ⟨i, v, .inr ⟨?_, hv⟩, hp⟩
      rintro rfl
      exact absurd hv (by simp [hfree])
    · exact ⟨_, u, .inl ⟨rfl, rfl⟩, rfl⟩

/-- Removing a unit keeps the maps in step. -/
theorem Valid.remove (hr : r.Valid) (h : r.remove id = some (u, s)) : s.Valid := by
  obtain ⟨hu, hunits, hids, hnext, -⟩ := lookup_remove h
  refine ⟨fun i hi => ?_, ?_⟩
  · rw [hnext]
    exact hr.fresh i (by rw [hunits] at hi; exact (AList.mem_erase.mp hi).2)
  · rw [hids, hunits]
    exact Agree.erase hr.agree hu

/-- Removing a unit ends the ownership of its address, and of no other. -/
theorem owns_remove (hr : r.Valid) (h : r.remove id = some (u, s)) :
    s.Owns ptr ↔ r.Owns ptr ∧ ptr ≠ u.ptr := by
  obtain ⟨hu, hunits, -, -, -⟩ := lookup_remove h
  simp only [Owns, hunits, AList.lookup_erase_eq_some]
  constructor
  · rintro ⟨i, v, ⟨hne, hv⟩, rfl⟩
    exact ⟨⟨i, v, hv, rfl⟩, fun hp => hne (hr.eq_of_ptr hv hu hp)⟩
  · rintro ⟨⟨i, v, hv, rfl⟩, hne⟩
    refine ⟨i, v, ⟨?_, hv⟩, rfl⟩
    rintro rfl
    exact hne (congrArg _ (Option.some.inj (hv.symm.trans hu)))

end UnitRegistry

end AxonVex
