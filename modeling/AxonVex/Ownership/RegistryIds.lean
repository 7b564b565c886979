import AxonVex.Core.UnitRegistry
import AxonVex.Machinery.Machine
import Mathlib.Algebra.Group.Nat.Defs

/-!
# Ownership/RegistryIds — the unit registry under a counter of 32 bits

    add, addAndRun ──nextUnitId_++──▸ units_[id] = unit, unitToId_[ptr] = id
    clear ──▸ both maps empty, the counter stays        resetIds ──▸ nextUnitId_ = 1

Each operation holds the registry's mutex from its first to its last access, so a run of any number
of threads is a list of whole operations.  `addAndRun` calls the caller's code inside, and takes the
insertion back when that code throws.

The counter wraps, and it can be set back while units are registered: then an insertion meets an id
that is in use, destroys the unit under it and strands that unit's reverse entry.

* `kept_iff_freshIds` — the maps stay inverse, nothing registered is destroyed and a throw restores
  both maps along a run exactly when every id that is handed out is not in use.
* `reset_between_adds` — `clear`, a registration, `resetIds` and two more registrations: the second
  of them destroys the first unit.
-/

namespace AxonVex

open Machinery

/-- What `add` and `addAndRun` throw. -/
inductive RegistryError
  | invalidArgument (what : String)
  | runtimeError (what : String)
  /-- whatever `onAdded` threw -/
  | onAdded
  deriving DecidableEq

namespace UnitRegistry

/-! ## The operations -/

/-- The insertion under the next id: `nextUnitId_++` is an `uint32_t`, and the assignment replaces
what is there. -/
def insertNext (r : UnitRegistry) (unit : ProcessingUnit) : UnitRegistry :=
  { r with
    units := r.units.insert r.nextUnitId unit
    unitToId := r.unitToId.insert unit.ptr r.nextUnitId
    nextUnitId := (r.nextUnitId + 1) % 2 ^ 32 }

/-- The taking back of an insertion. -/
def rollback (r : UnitRegistry) (unitId : ℕ) (unit : UnitPtr) : UnitRegistry :=
  { r with units := r.units.erase unitId, unitToId := r.unitToId.erase unit }

/-- `addAndRun(unit, onAdded)`, where `throws` says whether the callback throws. -/
def addAndRun (r : UnitRegistry) (unit : Option ProcessingUnit) (throws : Bool) :
    Except RegistryError ℕ × UnitRegistry :=
  match unit with
  | none => (.error (.invalidArgument "Processing unit cannot be null"), r)
  | some u =>
    if r.maxUnits ≤ r.count then
      (.error (.runtimeError "Maximum number of processing units exceeded"), r)
    else if throws then (.error .onAdded, (r.insertNext u).rollback r.nextUnitId u.ptr)
    else (.ok r.nextUnitId, r.insertNext u)

/-- `add(unit)`: the same insertion with nothing to run. -/
def addUnit (r : UnitRegistry) (unit : Option ProcessingUnit) :
    Except RegistryError ℕ × UnitRegistry :=
  r.addAndRun unit false

variable {r : UnitRegistry} {u : ProcessingUnit}

/-- Below the wrap, this is the `add` of the system's own runs. -/
theorem addUnit_eq_add (h : r.nextUnitId + 1 < 2 ^ 32) :
    r.add u = (r.addUnit (some u)).1.toOption.map fun id => (id, (r.addUnit (some u)).2) := by
  by_cases hfull : r.maxUnits ≤ r.count
  · have hadd : r.add u = none := if_pos hfull
    have hrun : r.addUnit (some u) = (.error (.runtimeError
        "Maximum number of processing units exceeded"), r) := if_pos hfull
    rw [hadd, hrun]
    rfl
  · have hadd : r.add u = some (r.nextUnitId, { r with
        units := r.units.insert r.nextUnitId u
        unitToId := r.unitToId.insert u.ptr r.nextUnitId
        nextUnitId := r.nextUnitId + 1 }) := if_neg hfull
    have hrun : r.addUnit (some u) = (.ok r.nextUnitId, r.insertNext u) := if_neg hfull
    rw [hadd, hrun, insertNext, Nat.mod_eq_of_lt h]
    rfl

@[simp] theorem insertNext_units :
    (r.insertNext u).units = r.units.insert r.nextUnitId u := rfl

@[simp] theorem insertNext_maxUnits : (r.insertNext u).maxUnits = r.maxUnits := rfl

theorem count_insertNext (hfree : r.find r.nextUnitId = none) :
    (r.insertNext u).count = r.count + 1 := by
  have hmem : r.nextUnitId ∉ r.units.keys := fun hm =>
    AList.lookup_eq_none.mp hfree (AList.mem_keys.mpr hm)
  rw [count, insertNext_units, AList.keys_insert, List.erase_of_not_mem hmem]
  rfl

/-- **Taking back an insertion** under a free id, of a unit at a free address, restores both
maps. -/
theorem rollback_insertNext (hfree : r.find r.nextUnitId = none) (hnew : r.idOf u.ptr = none) :
    ((r.insertNext u).rollback r.nextUnitId u.ptr).units = r.units ∧
      ((r.insertNext u).rollback r.nextUnitId u.ptr).unitToId = r.unitToId :=
  ⟨AList.erase_insert_of_lookup hfree, AList.erase_insert_of_lookup hnew⟩

end UnitRegistry

/-! ## Runs -/

namespace RegistryRun

/-- One operation of some thread. -/
inductive Label
  | add (unit : Option ProcessingUnit)
  | addAndRun (unit : Option ProcessingUnit) (throws : Bool)
  | remove (id : ℕ)
  | clear
  | resetIds
  | find (id : ℕ)
  | idOf (unit : UnitPtr)

/-- A unit that is handed over has one owner: it is not at the address of a registered one. -/
def Handed (r : UnitRegistry) (unit : Option ProcessingUnit) : Prop :=
  ∀ u ∈ unit, u.ptr ∉ r.all.map (·.ptr)

instance (r : UnitRegistry) (unit : Option ProcessingUnit) : Decidable (Handed r unit) :=
  inferInstanceAs (Decidable (∀ u ∈ unit, u.ptr ∉ r.all.map (·.ptr)))

/-- One whole operation. -/
def step (r : UnitRegistry) : Label → Option UnitRegistry
  | .add unit => if Handed r unit then some (r.addUnit unit).2 else none
  | .addAndRun unit throws => if Handed r unit then some (r.addAndRun unit throws).2 else none
  | .remove id => some ((r.remove id).elim r (·.2))
  | .clear => some r.clear
  | .resetIds => some r.resetIds
  | .find _ | .idOf _ => some r

/-- The unit a label inserts, and whether the callback that runs beside it throws. -/
def inserts : Label → Option (ProcessingUnit × Bool)
  | .add unit => unit.map (·, false)
  | .addAndRun unit throws => unit.map (·, throws)
  | _ => none

/-- The unit that is inserted, when there is room for it. -/
def admitted (r : UnitRegistry) (a : Label) : Option (ProcessingUnit × Bool) :=
  if r.count < r.maxUnits then inserts a else none

/-- The record of a run. -/
structure History where
  /-- the registered units that an insertion has destroyed -/
  replaced : List ProcessingUnit := []
  /-- the registry before and after each `addAndRun` whose callback threw -/
  rolledBack : List (UnitRegistry × UnitRegistry) := []

/-- What an operation adds to the record. -/
def record (r : UnitRegistry) (a : Label) (s : UnitRegistry) (h : History) : History :=
  match admitted r a with
  | none => h
  | some (_, throws) =>
    { replaced := h.replaced ++ (r.find r.nextUnitId).toList
      rolledBack := if throws then h.rolledBack ++ [(r, s)] else h.rolledBack }

/-- The registry of a limit, from its construction. -/
def machine (maxUnits : ℕ) : Machine UnitRegistry Label where
  init r := r = { maxUnits := maxUnits }
  step := step

/-- The registry with the record of its run. -/
abbrev observed (maxUnits : ℕ) : Machine (UnitRegistry × History) Label :=
  (machine maxUnits).withHistory {} record

/-- The promises of the registry. -/
structure Kept (p : UnitRegistry × History) : Prop where
  /-- `units_` and `unitToId_` are inverse to each other -/
  agree : UnitRegistry.Agree p.1.units p.1.unitToId
  /-- two registered units have two ids -/
  distinct : ∀ ptr ptr' id, p.1.idOf ptr = some id → p.1.idOf ptr' = some id → ptr = ptr'
  limited : p.1.count ≤ p.1.maxUnits
  /-- no insertion has destroyed a registered unit -/
  replaced : p.2.replaced = []
  /-- every throwing `addAndRun` has left both maps as they were -/
  restored : ∀ e ∈ p.2.rolledBack, e.2.units = e.1.units ∧ e.2.unitToId = e.1.unitToId

/-- **The id that is handed out is not in use.** -/
def FreshId (p : UnitRegistry × History) (a : Label) : Prop :=
  (admitted p.1 a).isSome → p.1.find p.1.nextUnitId = none

variable {r s : UnitRegistry} {p q : UnitRegistry × History} {a : Label} {maxUnits : ℕ}

/-! ## What a step does -/

/-- **One step**: an insertion, one that is taken back, a removal, a clear — or the maps stay. -/
theorem step_cases (h : step r a = some s) :
    (∃ u throws, admitted r a = some (u, throws) ∧ Handed r (some u) ∧
      s = if throws then (r.insertNext u).rollback r.nextUnitId u.ptr else r.insertNext u) ∨
    (admitted r a = none ∧ ((∃ id u, r.remove id = some (u, s)) ∨ s = r.clear ∨
      s.units = r.units ∧ s.unitToId = r.unitToId ∧ s.maxUnits = r.maxUnits)) := by
  have hinsert (unit : Option ProcessingUnit) (throws : Bool)
      (ha : inserts a = unit.map (·, throws))
      (h : (if Handed r unit then some (r.addAndRun unit throws).2 else none) = some s) :
      (∃ u throws, admitted r a = some (u, throws) ∧ Handed r (some u) ∧
        s = if throws then (r.insertNext u).rollback r.nextUnitId u.ptr else r.insertNext u) ∨
      (admitted r a = none ∧ s = r) := by
    obtain ⟨hhanded, ⟨⟩⟩ := Option.ite_none_right_eq_some.mp h
    cases unit with
    | none => exact .inr ⟨by rw [admitted, ha]; simp, rfl⟩
    | some u =>
      by_cases hfull : r.maxUnits ≤ r.count
      · refine .inr ⟨if_neg (not_lt.mpr hfull), ?_⟩
        simp only [UnitRegistry.addAndRun, if_pos hfull]
      · refine .inl ⟨u, throws, by rw [admitted, if_pos (not_le.mp hfull), ha]; rfl, hhanded, ?_⟩
        simp only [UnitRegistry.addAndRun, if_neg hfull]
        cases throws <;> rfl
  have hquiet (ha : inserts a = none) : admitted r a = none := by
    rw [admitted, ha, ite_self]
  cases a with
  | add unit =>
    exact (hinsert unit false rfl h).imp_right fun ⟨ha, hs⟩ => ⟨ha, .inr (.inr (by simp [hs]))⟩
  | addAndRun unit throws =>
    exact (hinsert unit throws rfl h).imp_right fun ⟨ha, hs⟩ => ⟨ha, .inr (.inr (by simp [hs]))⟩
  | remove id =>
    refine .inr ⟨hquiet rfl, ?_⟩
    obtain ⟨⟩ := h
    cases hrem : r.remove id with
    | none => exact .inr (.inr ⟨rfl, rfl, rfl⟩)
    | some e => exact .inl ⟨id, e.1, hrem⟩
  | clear => exact .inr ⟨hquiet rfl, .inr (.inl (Option.some.inj h).symm)⟩
  | resetIds | find id | idOf unit =>
    obtain ⟨⟩ := h
    exact .inr ⟨hquiet rfl, .inr (.inr ⟨rfl, rfl, rfl⟩)⟩

/-! ## The promises, step by step -/

namespace Kept

/-- A registered unit's address is in the reverse map. -/
theorem notMem_of_handed (hp : Kept p) (hnew : Handed p.1 (some u)) :
    p.1.idOf u.ptr = none := by
  refine Option.eq_none_iff_forall_ne_some.mpr fun id hid => ?_
  obtain ⟨v, hv, hptr⟩ := (hp.agree u.ptr id).mp hid
  exact hnew u rfl (List.mem_map.mpr ⟨v, AList.mem_values.mpr ⟨id, hv⟩, hptr⟩)

/-- Two registered units have two ids, wherever the maps agree. -/
theorem distinct_of_agree (h : UnitRegistry.Agree r.units r.unitToId) (ptr ptr' : UnitPtr) (id : ℕ)
    (hid : r.idOf ptr = some id) (hid' : r.idOf ptr' = some id) : ptr = ptr' := by
  obtain ⟨u, hu, rfl⟩ := (h ptr id).mp hid
  obtain ⟨v, hv, rfl⟩ := (h ptr' id).mp hid'
  rw [Option.some.inj (hu.symm.trans hv)]

theorem init (maxUnits : ℕ) : Kept ({ maxUnits := maxUnits }, {}) where
  agree ptr id := by simp
  distinct := distinct_of_agree fun ptr id => by simp
  limited := Nat.zero_le _
  replaced := rfl
  restored e he := absurd he (by simp)

end Kept

/-- The promises, of the registry alone. -/
theorem kept_iff :
    Kept p ↔ (UnitRegistry.Agree p.1.units p.1.unitToId ∧ p.1.count ≤ p.1.maxUnits) ∧
      p.2.replaced = [] ∧
      ∀ e ∈ p.2.rolledBack, e.2.units = e.1.units ∧ e.2.unitToId = e.1.unitToId :=
  ⟨fun h => ⟨⟨h.agree, h.limited⟩, h.replaced, h.restored⟩,
    fun ⟨⟨h1, h2⟩, h3, h4⟩ => ⟨h1, Kept.distinct_of_agree h1, h2, h3, h4⟩⟩

/-- An insertion that is taken back leaves the registry as it was, but for the counter. -/
theorem Kept.rollback (hp : Kept p) (hfree : p.1.find p.1.nextUnitId = none)
    (hnew : Handed p.1 (some u)) {throws : Bool} (ht : throws = true)
    (hs : s = if throws then (p.1.insertNext u).rollback p.1.nextUnitId u.ptr
      else p.1.insertNext u) :
    s.units = p.1.units ∧ s.unitToId = p.1.unitToId ∧ s.maxUnits = p.1.maxUnits := by
  subst ht
  rw [if_pos rfl] at hs
  obtain ⟨hunits, hids⟩ :=
    UnitRegistry.rollback_insertNext (u := u) hfree (hp.notMem_of_handed hnew)
  subst hs
  exact ⟨hunits, hids, rfl⟩

/-- **A step keeps the maps and the limit when the id it hands out is free.** -/
theorem Kept.step_maps (hp : Kept p) (hfresh : FreshId p a) (h : step p.1 a = some s) :
    UnitRegistry.Agree s.units s.unitToId ∧ s.count ≤ s.maxUnits := by
  have hsame (hs : s.units = p.1.units ∧ s.unitToId = p.1.unitToId ∧ s.maxUnits = p.1.maxUnits) :
      UnitRegistry.Agree s.units s.unitToId ∧ s.count ≤ s.maxUnits := by
    obtain ⟨hunits, hids, hmax⟩ := hs
    rw [UnitRegistry.count, hunits, hids, hmax]
    exact ⟨hp.agree, hp.limited⟩
  obtain ⟨u, throws, hadm, hnew, hs⟩ | ⟨-, ⟨id, u, hrem⟩ | rfl | hs⟩ := step_cases h
  · have hfree := hfresh (by rw [hadm]; rfl)
    cases ht : throws with
    | true => exact hsame (hp.rollback hfree hnew ht hs)
    | false =>
      rw [ht] at hs
      obtain rfl : s = p.1.insertNext u := hs
      have hroom : p.1.count < p.1.maxUnits := by
        by_contra hfull
        rw [admitted, if_neg hfull] at hadm
        exact absurd hadm (by simp)
      refine ⟨hp.agree.insert hfree fun i v hv hptr => ?_, ?_⟩
      · exact hnew u rfl (List.mem_map.mpr ⟨v, AList.mem_values.mpr ⟨i, hv⟩, hptr⟩)
      · rw [UnitRegistry.count_insertNext hfree]
        exact hroom
  · obtain ⟨hu, hunits, hids, -, hmax⟩ := UnitRegistry.lookup_remove hrem
    refine ⟨by rw [hunits, hids]; exact hp.agree.erase hu, ?_⟩
    have hle : (p.1.units.keys.erase id).length ≤ p.1.units.keys.length :=
      List.length_erase_le
    rw [UnitRegistry.count, hunits, AList.keys_erase, hmax]
    exact Nat.le_trans hle hp.limited
  · exact ⟨fun ptr id => by simp [UnitRegistry.clear], Nat.zero_le _⟩
  · exact hsame hs

/-- **The promises after a step are the promises before it, when and only when the id it hands out
is free.** -/
theorem Kept.step_iff (hp : Kept p) (h : (observed maxUnits).step p a = some q) :
    Kept q ↔ FreshId p a := by
  obtain ⟨hstep, hrec⟩ := Machine.withHistory_step.mp h
  constructor
  · intro hq hadm
    obtain ⟨e, he⟩ := Option.isSome_iff_exists.mp hadm
    have hnone := hq.replaced
    rw [← hrec, record, he, hp.replaced] at hnone
    exact Option.toList_eq_nil_iff.mp hnone
  · intro hfresh
    refine kept_iff.mpr ⟨hp.step_maps hfresh hstep, ?_⟩
    rw [← hrec]
    cases hadm : admitted p.1 a with
    | none =>
      rw [record, hadm]
      exact ⟨hp.replaced, hp.restored⟩
    | some e =>
      have hfree := hfresh (by rw [hadm]; rfl)
      obtain ⟨u, throws, hadm', hnew, hs⟩ | ⟨hnone, -⟩ := step_cases hstep
      · obtain rfl := Option.some.inj (hadm.symm.trans hadm')
        rw [record, hadm, hfree, hp.replaced]
        refine ⟨rfl, ?_⟩
        cases ht : throws with
        | false => exact hp.restored
        | true =>
          obtain ⟨hunits, hids, -⟩ := hp.rollback hfree hnew ht hs
          intro e he
          obtain he | he := List.mem_append.mp he
          · exact hp.restored e he
          · obtain rfl := List.mem_singleton.mp he
            exact ⟨hunits, hids⟩
      · exact absurd (hadm.symm.trans hnone) (by simp)

/-! ## Runs -/

/-- **The registry keeps its promises along a run exactly when no id is handed out twice.** -/
theorem kept_iff_freshIds (maxUnits : ℕ) (as : List Label) :
    (observed maxUnits).Always Kept ({ maxUnits := maxUnits }, {}) as ↔
      (observed maxUnits).Allowed FreshId ({ maxUnits := maxUnits }, {}) as :=
  Machine.always_iff_allowed (I := fun _ => True) (fun _ _ _ _ _ _ => trivial)
    (fun _ _ _ _ hp h => hp.step_iff h) trivial (Kept.init maxUnits) as

/-- Units for a run. -/
def unit (ptr : UnitPtr) : ProcessingUnit := .new ptr "unit"

/-- Between the `clear` and the `resetIds` of a reset another thread registers unit 2; the second
registration after it destroys that unit. -/
def resetBetweenAdds : List Label :=
  [.add (unit 1), .clear, .add (unit 2), .resetIds, .add (unit 3), .add (unit 4)]

/-- **A registered unit is destroyed by a registration.** -/
theorem reset_between_adds :
    ¬ ∀ as : List Label, (observed 64).Always Kept ({ maxUnits := 64 }, {}) as := by
  intro hall
  have hex : ((observed 64).exec ({ maxUnits := 64 }, {}) resetBetweenAdds).any
      (fun p => p.2.replaced.length == 1) = true := by decide +kernel
  obtain ⟨p, hp, hone⟩ := (Option.any_eq_true _ _).mp hex
  have hkept := (hall resetBetweenAdds).exec hp
  rw [hkept.replaced] at hone
  exact absurd hone (by simp)

end RegistryRun

end AxonVex
