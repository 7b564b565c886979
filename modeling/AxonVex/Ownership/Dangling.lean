import AxonVex.Ownership.Fleet

/-!
# Ownership/Dangling — connections to units that are gone

`unregisterProcessingUnit` destroys a unit without a look at the units that are connected to it, in
its own system or in another.  `fleet_sound_iff` says exactly which runs stay clear of it: those that
destroy a unit only when no other lists a port of it.  A load that fails and is rolled back is never
to blame, since its units are connected with one another only.

* `Valid` — every address is that of one unit, held in one place; each operation keeps it.
* `Inv.foldl_deliver` — a write from a sound fleet finds every port of its list.
-/

namespace AxonVex

open Machinery

/-! ## One registry -/

namespace UnitRegistry

variable {r s : UnitRegistry} {u v : ProcessingUnit} {id : ℕ} {ptr : UnitPtr}

theorem mem_all_add (hr : r.Valid) (h : r.add u = some (id, s)) : v ∈ s.all ↔ v ∈ r.all ∨ v = u := by
  obtain ⟨rfl, hunits, -⟩ := lookup_add h
  simp only [mem_all, hunits, AList.lookup_insert_eq_some]
  constructor
  · rintro ⟨i, ⟨-, rfl⟩ | ⟨-, hv⟩⟩
    · exact .inr rfl
    · exact .inl ⟨i, hv⟩
  · rintro (⟨i, hv⟩ | rfl)
    · exact ⟨i, .inr ⟨(hr.fresh i (AList.mem_of_lookup hv)).ne, hv⟩⟩
    · exact ⟨_, .inl ⟨rfl, rfl⟩⟩

theorem mem_all_remove (hr : r.Valid) (h : r.remove id = some (u, s)) :
    v ∈ s.all ↔ v ∈ r.all ∧ v.ptr ≠ u.ptr := by
  obtain ⟨hu, hunits, -⟩ := lookup_remove h
  simp only [mem_all, hunits, AList.lookup_erase_eq_some]
  constructor
  · rintro ⟨i, hne, hv⟩
    exact ⟨⟨i, hv⟩, fun hptr => hne (hr.eq_of_ptr hv hu hptr)⟩
  · rintro ⟨⟨i, hv⟩, hne⟩
    refine ⟨i, ?_, hv⟩
    rintro rfl
    exact hne (congrArg _ (Option.some.inj (hv.symm.trans hu)))

theorem remove_of_find (h : r.find id = some u) : ∃ s, r.remove id = some (u, s) :=
  ⟨_, congrArg (Option.map _) h⟩

theorem owns_of_mem_all (h : u ∈ r.all) : r.Owns u.ptr :=
  owns_iff_mem_all.mpr ⟨u, h, rfl⟩

theorem Valid.eq_of_mem_all (hr : r.Valid) (hu : u ∈ r.all) (hv : v ∈ r.all) (h : u.ptr = v.ptr) :
    u = v := by
  obtain ⟨i, hi⟩ := mem_all.mp hu
  obtain ⟨j, hj⟩ := mem_all.mp hv
  obtain rfl := hr.eq_of_ptr hi hj h
  exact Option.some.inj (hi.symm.trans hj)

theorem Valid.unitAt_eq_some (hr : r.Valid) : r.unitAt ptr = some u ↔ u ∈ r.all ∧ u.ptr = ptr := by
  rw [mem_all, unitAt, Option.bind_eq_some_iff]
  constructor
  · rintro ⟨i, hi, hu⟩
    obtain ⟨v, hv, hptr⟩ := (hr.agree ptr i).mp hi
    obtain rfl := Option.some.inj (hu.symm.trans hv)
    exact ⟨⟨i, hu⟩, hptr⟩
  · rintro ⟨⟨i, hu⟩, hptr⟩
    exact ⟨i, (hr.agree ptr i).mpr ⟨u, hu, hptr⟩, hu⟩

end UnitRegistry

/-- The unit at this address is changed. -/
def ProcessingUnit.changeAt (ptr : UnitPtr) (f : ProcessingUnit → ProcessingUnit)
    (u : ProcessingUnit) : ProcessingUnit := if u.ptr = ptr then f u else u

theorem ProcessingUnit.changeAt_ptr {f : ProcessingUnit → ProcessingUnit}
    (hf : ∀ u, (f u).ptr = u.ptr) (ptr : UnitPtr) (u : ProcessingUnit) :
    (u.changeAt ptr f).ptr = u.ptr := by
  unfold changeAt
  split
  · exact hf u
  · rfl

namespace AxonVexSystem

variable {s : AxonVexSystem} {ptr : UnitPtr} {f : ProcessingUnit → ProcessingUnit} {v : ProcessingUnit}

theorem unitRegistry_unregister {id : ℕ} {u : ProcessingUnit} {r : UnitRegistry}
    (h : s.unitRegistry.remove id = some (u, r)) :
    (s.unregisterProcessingUnit id).1.unitRegistry = r := by
  simp only [unregisterProcessingUnit, h, publish_unitRegistry]

theorem unregister_of_find {id : ℕ} (h : s.unitRegistry.find id = none) :
    s.unregisterProcessingUnit id = (s, false) :=
  unregisterProcessingUnit_of_notMem (congrArg (Option.map _) h)

/-- A registry that is not full takes a unit. -/
theorem add_of_room {unit : ProcessingUnit} {constraints : TimingConstraints} {now : TimePoint}
    (h : s.unitRegistry.count < s.unitRegistry.maxUnits) :
    ∃ id, s.unitRegistry.add unit =
      some (id, (s.registerProcessingUnit unit constraints now).1.unitRegistry) := by
  cases hreg : (s.registerProcessingUnit unit constraints now).2 with
  | none =>
    have hadd : s.unitRegistry.add unit = some (_, _) := if_neg h.not_ge
    simp [registerProcessingUnit, hadd] at hreg
  | some id => exact ⟨id, add_of_registerProcessingUnit (Prod.ext rfl hreg)⟩

theorem unitRegistry_assignSystemPort (find : ProcessingUnit → ℤ → Option PortPtr)
    (assign : SystemPortRegistry → String → PortPtr → Option SystemPortRegistry)
    (kind name : String) (unit : UnitPtr) (unitPortId : ℤ) :
    (s.assignSystemPort find assign kind name unit unitPortId).1.unitRegistry = s.unitRegistry := by
  unfold assignSystemPort
  split
  · rfl
  · split
    · rfl
    · split
      · rfl
      · split <;> rfl

theorem unitRegistry_removeSystemInputPort (name : String) :
    (s.removeSystemInputPort name).1.unitRegistry = s.unitRegistry := by
  unfold removeSystemInputPort
  split <;> rfl

theorem unitRegistry_removeSystemOutputPort (name : String) :
    (s.removeSystemOutputPort name).1.unitRegistry = s.unitRegistry := by
  unfold removeSystemOutputPort
  split <;> rfl

/-- **The units of a system, once the one at an address is changed.** -/
theorem mem_all_modifyUnit (hs : s.unitRegistry.Valid) :
    v ∈ (s.modifyUnit ptr f).unitRegistry.all ↔ ∃ u ∈ s.unitRegistry.all, u.changeAt ptr f = v := by
  have hkept {u : ProcessingUnit} (hu : u ∈ s.unitRegistry.all) (hne : u.ptr ≠ ptr) :
      u.changeAt ptr f = u := if_neg hne
  cases hid : s.unitRegistry.idOf ptr with
  | none =>
    have hnone (u) (hu : u ∈ s.unitRegistry.all) : u.ptr ≠ ptr := by
      rintro rfl
      have hsome := hs.owns_iff.mp (UnitRegistry.owns_of_mem_all hu)
      rw [hid] at hsome
      cases hsome
    rw [show s.modifyUnit ptr f = s by simp only [modifyUnit, hid]]
    constructor
    · exact fun hv => ⟨v, hv, hkept hv (hnone v hv)⟩
    · rintro ⟨u, hu, rfl⟩
      rwa [hkept hu (hnone u hu)]
  | some k =>
    obtain ⟨w, hw, hptr⟩ := (hs.agree ptr k).mp hid
    rw [modifyUnit_of_idOf hid]
    simp only [UnitRegistry.mem_all]
    constructor
    · rintro ⟨i, hi⟩
      by_cases hik : i = k
      · subst hik
        rw [AList.lookup_modify_self, hw] at hi
        exact ⟨w, ⟨i, hw⟩, (if_pos hptr).trans (Option.some.inj hi)⟩
      · rw [AList.lookup_modify_ne hik] at hi
        exact ⟨v, ⟨i, hi⟩, if_neg fun hv => hik (hs.eq_of_ptr hi hw (hv.trans hptr.symm))⟩
    · rintro ⟨u, ⟨i, hu⟩, rfl⟩
      refine ⟨i, ?_⟩
      by_cases hik : i = k
      · subst hik
        obtain rfl := Option.some.inj (hu.symm.trans hw)
        rw [AList.lookup_modify_self, hu, ProcessingUnit.changeAt, if_pos hptr, Option.map_some]
      · rw [AList.lookup_modify_ne hik, hu, ProcessingUnit.changeAt,
          if_neg fun hv => hik (hs.eq_of_ptr hu hw (hv.trans hptr.symm))]

theorem valid_modifyUnit (hs : s.unitRegistry.Valid) (hf : ∀ u, (f u).ptr = u.ptr) :
    (s.modifyUnit ptr f).unitRegistry.Valid := by
  unfold modifyUnit
  split
  · exact hs
  · exact valid_modify hs hf _

end AxonVexSystem

/-! ## The units of a fleet -/

namespace Fleet

variable {F F' : Fleet} {a : Label} {k : ℕ} {s s' : AxonVexSystem} {u v : ProcessingUnit}
  {ptr : UnitPtr} {place place' : Option ℕ} {f : ProcessingUnit → ProcessingUnit}

/-- Every address is that of one unit, which is held in one place. -/
structure Valid (F : Fleet) : Prop where
  registries : ∀ s ∈ F.systems, s.unitRegistry.Valid
  named : ∀ ptr u, F.free.lookup ptr = some u → u.ptr = ptr
  below : ∀ place u, F.HeldAt place u → u.ptr < F.nextPtr
  apart : ∀ place place' u v, F.HeldAt place u → F.HeldAt place' v → u.ptr = v.ptr → place = place'

/-- A live unit has this address. -/
abbrev Live (F : Fleet) (ptr : UnitPtr) : Prop := Named ProcessingUnit.ptr F.units ptr

theorem Valid.eq_of_ptr (hF : F.Valid) (hu : F.HeldAt place u) (hv : F.HeldAt place' v)
    (h : u.ptr = v.ptr) : u = v := by
  obtain rfl := hF.apart place place' u v hu hv h
  cases place with
  | none =>
    have hv : F.free.lookup v.ptr = some v := hv
    rw [← h] at hv
    exact Option.some.inj (hu.symm.trans hv)
  | some k =>
    obtain ⟨s, hs, hu⟩ := hu
    obtain ⟨t, ht, hv⟩ := hv
    obtain rfl := Option.some.inj (hs.symm.trans ht)
    exact (hF.registries s (List.mem_of_getElem? hs)).eq_of_mem_all hu hv h

/-- **What `unitAt` finds** is a live unit at this address. -/
theorem Valid.mem_units_of_unitAt (hF : F.Valid) (h : F.unitAt ptr = some u) :
    u ∈ F.units ∧ u.ptr = ptr := by
  rcases Option.or_eq_some_iff.mp h with hfree | ⟨-, hsys⟩
  · obtain rfl := hF.named ptr u hfree
    exact ⟨⟨none, hfree⟩, rfl⟩
  · obtain ⟨s, hs, hu⟩ := List.exists_of_findSome?_eq_some hsys
    obtain ⟨k, hk⟩ := List.getElem?_of_mem hs
    obtain ⟨hu, hptr⟩ := (hF.registries s hs).unitAt_eq_some.mp hu
    exact ⟨⟨some k, s, hk, hu⟩, hptr⟩

/-- **A live unit is found.** -/
theorem Valid.exists_unitAt (hF : F.Valid) (h : F.Live ptr) : ∃ u, F.unitAt ptr = some u := by
  obtain ⟨u, ⟨place, hu⟩, rfl⟩ := h
  rw [← Option.isSome_iff_exists, unitAt, Option.isSome_or, Bool.or_eq_true]
  cases place with
  | none => exact .inl (Option.isSome_iff_exists.mpr ⟨u, hu⟩)
  | some k =>
    obtain ⟨s, hs, hu⟩ := hu
    have hs := List.mem_of_getElem? hs
    refine .inr (List.findSome?_isSome_iff.mpr ⟨s, hs, ?_⟩)
    rw [(hF.registries s hs).unitAt_eq_some.mpr ⟨hu, rfl⟩]
    rfl

/-- The units of a system that takes the place of another. -/
theorem heldAt_set (hk : F.systems[k]? = some s) (hsys : F'.systems = F.systems.set k s')
    {l : ℕ} : F'.HeldAt (some l) u ↔
      l = k ∧ u ∈ s'.unitRegistry.all ∨ l ≠ k ∧ F.HeldAt (some l) u := by
  have hlt := (List.getElem?_eq_some_iff.mp hk).1
  simp only [HeldAt, hsys]
  by_cases hl : l = k
  · subst hl
    rw [List.getElem?_set_self hlt]
    simp
  · rw [List.getElem?_set_ne fun h => hl h.symm]
    simp [hl]

theorem heldAt_set_same (hk : F.systems[k]? = some s) (hsys : F'.systems = F.systems.set k s')
    (hreg : s'.unitRegistry = s.unitRegistry) {l : ℕ} :
    F'.HeldAt (some l) u ↔ F.HeldAt (some l) u := by
  rw [heldAt_set hk hsys, hreg]
  by_cases hl : l = k
  · subst hl
    simp [HeldAt, hk]
  · simp [hl]

/-- **How a step keeps the places apart**: what it moves to the place `site` has an address that nothing
else has. -/
theorem Valid.of_held (hF : F.Valid) (hreg : ∀ s ∈ F'.systems, s.unitRegistry.Valid)
    (hnamed : ∀ ptr u, F'.free.lookup ptr = some u → u.ptr = ptr) (hle : F.nextPtr ≤ F'.nextPtr)
    (moved : UnitPtr → Prop) (site : Option ℕ)
    (hheld : ∀ place v, F'.HeldAt place v →
      ((∃ u, F.HeldAt place u ∧ u.ptr = v.ptr) ∧ ¬ moved v.ptr) ∨
        place = site ∧ moved v.ptr ∧ v.ptr < F'.nextPtr) : F'.Valid where
  registries := hreg
  named := hnamed
  below place v hv := by
    rcases hheld place v hv with ⟨⟨u, hu, hptr⟩, -⟩ | ⟨-, -, hlt⟩
    · exact hptr ▸ (hF.below place u hu).trans_le hle
    · exact hlt
  apart place place' v w hv hw hptr := by
    rcases hheld place v hv with ⟨⟨u, hu, huv⟩, hkept⟩ | ⟨rfl, hmoved, -⟩ <;>
      rcases hheld place' w hw with ⟨⟨u', hu', huw⟩, hkept'⟩ | ⟨rfl, hmoved', -⟩
    · exact hF.apart place place' u u' hu hu' (huv.trans (hptr.trans huw.symm))
    · exact absurd (hptr ▸ hmoved') hkept
    · exact absurd (hptr ▸ hmoved) hkept'
    · rfl

theorem registries_set (hF : F.Valid) (hs' : s'.unitRegistry.Valid) :
    ∀ s ∈ F.systems.set k s', s.unitRegistry.Valid := by
  intro t ht
  rcases List.mem_or_eq_of_mem_set ht with ht | rfl
  · exact hF.registries t ht
  · exact hs'

/-! ## Changes in place -/

theorem heldAt_modifyUnit (hF : F.Valid) (hf : ∀ u, (f u).ptr = u.ptr) :
    (F.modifyUnit ptr f).HeldAt place v ↔ ∃ u, F.HeldAt place u ∧ u.changeAt ptr f = v := by
  cases place with
  | none =>
    change (F.free.modify ptr f).lookup v.ptr = some v ↔ ∃ u, F.free.lookup u.ptr = some u ∧ _
    by_cases hv : v.ptr = ptr
    · rw [hv, AList.lookup_modify_self, Option.map_eq_some_iff]
      constructor
      · rintro ⟨u, hu, rfl⟩
        have hptr := hF.named ptr u hu
        exact ⟨u, by rwa [hptr], if_pos hptr⟩
      · rintro ⟨u, hu, rfl⟩
        rw [ProcessingUnit.changeAt_ptr hf] at hv
        exact ⟨u, by rwa [hv] at hu, (if_pos hv).symm⟩
    · rw [AList.lookup_modify_ne hv]
      constructor
      · exact fun h => ⟨v, h, if_neg hv⟩
      · rintro ⟨u, hu, rfl⟩
        rw [ProcessingUnit.changeAt_ptr hf] at hv
        have hsame : u.changeAt ptr f = u := if_neg hv
        rwa [hsame]
  | some k =>
    change (∃ t, (F.systems.map (·.modifyUnit ptr f))[k]? = some t ∧ v ∈ t.unitRegistry.all) ↔
      ∃ u, (∃ s, F.systems[k]? = some s ∧ u ∈ s.unitRegistry.all) ∧ _
    rw [List.getElem?_map]
    constructor
    · rintro ⟨t, ht, hv⟩
      obtain ⟨s, hs, rfl⟩ := Option.map_eq_some_iff.mp ht
      obtain ⟨u, hu, huv⟩ := (AxonVexSystem.mem_all_modifyUnit
        (hF.registries s (List.mem_of_getElem? hs))).mp hv
      exact ⟨u, ⟨s, hs, hu⟩, huv⟩
    · rintro ⟨u, ⟨s, hs, hu⟩, huv⟩
      exact ⟨_, congrArg (Option.map (·.modifyUnit ptr f)) hs, (AxonVexSystem.mem_all_modifyUnit
        (hF.registries s (List.mem_of_getElem? hs))).mpr ⟨u, hu, huv⟩⟩

theorem mem_units_modifyUnit (hF : F.Valid) (hf : ∀ u, (f u).ptr = u.ptr) :
    v ∈ (F.modifyUnit ptr f).units ↔ ∃ u ∈ F.units, u.changeAt ptr f = v := by
  constructor
  · rintro ⟨place, hv⟩
    obtain ⟨u, hu, huv⟩ := (heldAt_modifyUnit hF hf).mp hv
    exact ⟨u, ⟨place, hu⟩, huv⟩
  · rintro ⟨u, ⟨place, hu⟩, huv⟩
    exact ⟨place, (heldAt_modifyUnit hF hf).mpr ⟨u, hu, huv⟩⟩

theorem Valid.modifyUnit (hF : F.Valid) (hf : ∀ u, (f u).ptr = u.ptr) :
    (F.modifyUnit ptr f).Valid := by
  refine hF.of_held (fun t ht => ?_) (fun p u hu => ?_) le_rfl (fun _ => False) none
    fun place v hv => .inl ⟨?_, id⟩
  · obtain ⟨s, hs, rfl⟩ := List.mem_map.mp ht
    exact AxonVexSystem.valid_modifyUnit (hF.registries s hs) hf
  · have hmap := AList.map_lookup_modify f (·.ptr) hf F.free ptr p
    rw [show (F.free.modify ptr f).lookup p = some u from hu] at hmap
    obtain ⟨w, hw, hwu⟩ := Option.map_eq_some_iff.mp hmap.symm
    exact hwu.symm.trans (hF.named p w hw)
  · obtain ⟨u, hu, rfl⟩ := (heldAt_modifyUnit hF hf).mp hv
    exact ⟨u, hu, (ProcessingUnit.changeAt_ptr hf ptr u).symm⟩

/-- A live unit stays live while another is changed. -/
theorem Valid.live_modifyUnit (hF : F.Valid) (hf : ∀ u, (f u).ptr = u.ptr) {p : UnitPtr}
    (h : F.Live p) : (F.modifyUnit ptr f).Live p :=
  h.change (ProcessingUnit.changeAt_ptr hf ptr) fun u hu =>
    (mem_units_modifyUnit hF hf).mpr ⟨u, hu, rfl⟩

/-- A fleet as it should be. -/
structure Inv (F : Fleet) : Prop extends Valid F, Sound F

/-- **A unit is changed in place**, with connections to live units. -/
theorem Inv.modifyUnit (hI : F.Inv) (hf : ∀ u, (f u).ptr = u.ptr)
    (htargets : ∀ u, ∀ q ∈ (f u).targets, q ∈ u.targets ∨ F.Live q.owner) :
    (F.modifyUnit ptr f).Inv where
  toValid := hI.toValid.modifyUnit hf
  closed := by
    refine hI.closed.change (ProcessingUnit.changeAt_ptr hf ptr)
      (fun v => mem_units_modifyUnit hI.toValid hf) fun u _ b hb => ?_
    obtain ⟨q, hq, rfl⟩ := hb
    unfold ProcessingUnit.changeAt at hq
    split at hq
    · exact (htargets u q hq).imp_left fun hq => ⟨q, hq, rfl⟩
    · exact .inl ⟨q, hq, rfl⟩
  written := hI.written

theorem Inv.modifyOut (hI : F.Inv) {p : PortPtr} {g : OutPort → OutPort}
    (hg : ∀ port, ∀ q ∈ (g port).connections, q ∈ port.connections ∨ F.Live q.owner) :
    (F.modifyOut p g).Inv :=
  hI.modifyUnit (fun _ => ProcessingUnit.modifyOut_ptr p g) fun _ q hq =>
    ProcessingUnit.mem_targets_of_modifyOut (P := fun q => F.Live q.owner) (hg · q) hq

theorem Valid.live_of_inPort? (hF : F.Valid) {p : PortPtr} {port : InPort}
    (h : F.inPort? p = some port) : F.Live p.owner := by
  obtain ⟨u, hu, -⟩ := Option.bind_eq_some_iff.mp h
  obtain ⟨hu, hptr⟩ := hF.mem_units_of_unitAt hu
  exact ⟨u, hu, hptr⟩

/-- **A connection leads to a live unit.** -/
theorem Inv.tryConnect (hI : F.Inv) (source target : PortPtr) : (F.tryConnect source target).Inv := by
  unfold Fleet.tryConnect
  split
  next p q hp hq =>
    split
    · refine hI.modifyOut fun port q' hq' => ?_
      rcases OutPort.mem_connect.mp hq' with hold | rfl
      · exact .inl hold
      · exact .inr (hI.toValid.live_of_inPort? hq)
    · exact hI
  · exact hI

theorem Inv.disconnect (hI : F.Inv) (source target : PortPtr) : (F.disconnect source target).Inv :=
  hI.modifyOut fun _ _ hq => .inl (OutPort.mem_of_mem_disconnect hq)

theorem Inv.connectToSystem (hI : F.Inv) (T : String) (k : ℕ) (output : String) (l : ℕ)
    (input : String) : (F.connectToSystem T k output l input).Inv := by
  unfold Fleet.connectToSystem
  split
  · exact hI.tryConnect _ _
  · exact hI

theorem Inv.disconnectFromSystem (hI : F.Inv) (T : String) (k : ℕ) (output : String) (l : ℕ)
    (input : String) : (F.disconnectFromSystem T k output l input).Inv := by
  unfold Fleet.disconnectFromSystem
  split
  · exact hI.disconnect _ _
  · exact hI

/-! ## Writes -/

variable {accepts : PortPtr → Bool}

/-- **A port of a live unit is written to**; every live unit stays live. -/
theorem Inv.deliver (hI : F.Inv) {target : PortPtr} (h : F.Live target.owner) :
    (F.deliver accepts target).Inv ∧ ∀ ptr, F.Live ptr → (F.deliver accepts target).Live ptr := by
  obtain ⟨u, hu⟩ := hI.toValid.exists_unitAt h
  have hf (u : ProcessingUnit) :
      (u.modifyIn target (·.writeData (accepts target))).ptr = u.ptr := u.modifyIn_ptr _
  have heq : F.deliver accepts target =
      F.modifyUnit target.owner (·.modifyIn target (·.writeData (accepts target))) := by
    simp only [Fleet.deliver, hu]
  rw [heq]
  refine ⟨hI.modifyUnit hf fun u q hq => .inl ?_, fun ptr => hI.toValid.live_modifyUnit hf⟩
  rwa [ProcessingUnit.modifyIn_targets] at hq

/-- **A write finds every port of its list.** -/
theorem Inv.foldl_deliver (hI : F.Inv) (targets : List PortPtr)
    (h : ∀ q ∈ targets, F.Live q.owner) :
    (targets.foldl (fun F target => F.deliver accepts target) F).Inv := by
  induction targets generalizing F with
  | nil => exact hI
  | cons q targets ih =>
    obtain ⟨hI', hlive⟩ := @Inv.deliver _ accepts hI _ (h q List.mem_cons_self)
    exact ih hI' fun q' hq' => hlive _ (h q' (List.mem_cons_of_mem _ hq'))

theorem Inv.write (hI : F.Inv) (source : PortPtr) (valid : Bool) (accepts : PortPtr → Bool) :
    (F.write source valid accepts).Inv := by
  unfold Fleet.write
  split
  · exact hI
  next p hp =>
    have hcount := hI.modifyOut (p := source)
      (g := fun p => { p with totalMessages := p.totalMessages + 1 }) fun _ _ hq => .inl hq
    dsimp only
    split
    · obtain ⟨u, hu, hp⟩ := Option.bind_eq_some_iff.mp hp
      have hu := (hI.toValid.mem_units_of_unitAt hu).1
      refine hcount.foldl_deliver _ fun q hq => ?_
      exact hI.toValid.live_modifyUnit (fun _ => ProcessingUnit.modifyOut_ptr source _)
        (hI.closed u hu _ ⟨q, ProcessingUnit.mem_targets_of_outPort? hp hq, rfl⟩)
    · exact hcount

/-! ## Systems -/

/-- A system goes on with the units it has. -/
theorem Inv.set_same (hI : F.Inv) (hk : F.systems[k]? = some s)
    (hreg : s'.unitRegistry = s.unitRegistry) : Inv { F with systems := F.systems.set k s' } := by
  have hheld (place : Option ℕ) (v : ProcessingUnit) :
      Fleet.HeldAt { F with systems := F.systems.set k s' } place v ↔ F.HeldAt place v := by
    cases place with
    | none => exact Iff.rfl
    | some l => exact heldAt_set_same hk rfl hreg
  have hunits : Fleet.units { F with systems := F.systems.set k s' } = F.units :=
    Set.ext fun v => exists_congr fun place => hheld place v
  refine ⟨hI.toValid.of_held (registries_set hI.toValid ?_) hI.named le_rfl (fun _ => False) none
    fun place v hv => .inl ⟨⟨v, (hheld place v).mp hv, rfl⟩, id⟩, ⟨?_, hI.written⟩⟩
  · exact hreg ▸ hI.registries s (List.mem_of_getElem? hk)
  · exact hunits ▸ hI.closed

theorem Inv.onSystem (hI : F.Inv) {f : AxonVexSystem → AxonVexSystem}
    (hf : ∀ s, (f s).unitRegistry = s.unitRegistry) (h : F.onSystem k f = some F') : F'.Inv := by
  obtain ⟨s, hk, rfl⟩ := Option.map_eq_some_iff.mp h
  exact hI.set_same hk (hf s)

/-- **One unit is destroyed.** -/
structure Destroys (F F' : Fleet) (ptr : UnitPtr) : Prop where
  valid : F'.Valid
  units : ∀ v, v ∈ F'.units ↔ v ∈ F.units ∧ v.ptr ≠ ptr
  strayed : F'.strayed = F.strayed

/-- **When the fleet stays sound.** -/
theorem Destroys.sound_iff (h : Destroys F F' ptr) (hs : F.Sound) : F'.Sound ↔ F.Unlisted ptr := by
  have hclosed := closed_shrink_iff (· = ptr) hs.closed h.units
  constructor
  · exact fun hs' u hu hne q hq => hclosed.mp hs'.closed u hu hne _ ⟨q, hq, rfl⟩
  · refine fun hun => ⟨hclosed.mpr fun u hu hne b hb => ?_, h.strayed.trans hs.written⟩
    obtain ⟨q, hq, rfl⟩ := hb
    exact hun u hu hne q hq

theorem Destroys.of_held (hF : F.Valid) (hreg : ∀ s ∈ F'.systems, s.unitRegistry.Valid)
    (hnamed : ∀ ptr u, F'.free.lookup ptr = some u → u.ptr = ptr) (hnext : F'.nextPtr = F.nextPtr)
    (hheld : ∀ place v, F'.HeldAt place v ↔ F.HeldAt place v ∧ v.ptr ≠ ptr)
    (hstrayed : F'.strayed = F.strayed) : Destroys F F' ptr where
  valid := hF.of_held hreg hnamed hnext.ge (fun _ => False) none fun place v hv =>
    .inl ⟨⟨v, ((hheld place v).mp hv).1, rfl⟩, id⟩
  units v := by
    constructor
    · rintro ⟨place, hv⟩
      obtain ⟨hv, hne⟩ := (hheld place v).mp hv
      exact ⟨⟨place, hv⟩, hne⟩
    · rintro ⟨⟨place, hv⟩, hne⟩
      exact ⟨place, (hheld place v).mpr ⟨hv, hne⟩⟩
  strayed := hstrayed

/-- **A unit is unregistered.** -/
theorem destroys_unregister (hF : F.Valid) (hk : F.systems[k]? = some s) {id : ℕ}
    (hu : s.unitRegistry.find id = some u) :
    Destroys F { F with systems := F.systems.set k (s.unregisterProcessingUnit id).1 } u.ptr := by
  have hs := hF.registries s (List.mem_of_getElem? hk)
  obtain ⟨r, hrem⟩ := UnitRegistry.remove_of_find hu
  have hreg := AxonVexSystem.unitRegistry_unregister hrem
  have hheld : F.HeldAt (some k) u := ⟨s, hk, UnitRegistry.mem_all.mpr ⟨id, hu⟩⟩
  refine .of_held hF (registries_set hF (valid_unregisterProcessingUnit hs id)) hF.named rfl
    (fun place v => ?_) rfl
  cases place with
  | none =>
    refine (and_iff_left_of_imp fun hv hptr => ?_).symm
    exact absurd (hF.apart none (some k) v u hv hheld hptr) (by simp)
  | some l =>
    rw [heldAt_set hk rfl, hreg, UnitRegistry.mem_all_remove hs hrem]
    by_cases hl : l = k
    · subst hl
      simp [HeldAt, hk]
    · have hne (hv : F.HeldAt (some l) v) : v.ptr ≠ u.ptr := fun hptr =>
        hl (Option.some.inj (hF.apart (some l) (some k) v u hv hheld hptr))
      simp only [hl, false_and, ne_eq, not_false_eq_true, true_and, false_or]
      exact (and_iff_left_of_imp hne).symm

/-! ## Registration -/

/-- **A system refuses a unit.** -/
theorem destroys_refused (hF : F.Valid) (hk : F.systems[k]? = some s)
    (hu : F.free.lookup ptr = some u) (hreg : s'.unitRegistry = s.unitRegistry) :
    Destroys F { F with free := F.free.erase ptr, systems := F.systems.set k s' } ptr := by
  have hs := hF.registries s (List.mem_of_getElem? hk)
  have hptr := hF.named ptr u hu
  have hheld : F.HeldAt none u := by rwa [← hptr] at hu
  refine .of_held hF (registries_set hF (hreg ▸ hs))
    (fun p w hw => hF.named p w (AList.lookup_erase_eq_some.mp hw).2) rfl (fun place v => ?_) rfl
  cases place with
  | none => exact AList.lookup_erase_eq_some.trans and_comm
  | some l =>
    rw [heldAt_set_same hk rfl hreg]
    refine (and_iff_left_of_imp fun hv hvptr => ?_).symm
    exact absurd (hF.apart (some l) none v u hv hheld (hvptr.trans hptr.symm)) (by simp)

/-- **A system takes a unit over**; it stays where it is. -/
theorem Inv.takenOver (hI : F.Inv) (hk : F.systems[k]? = some s) (hu : F.free.lookup ptr = some u)
    {id : ℕ} (hadd : s.unitRegistry.add u = some (id, s'.unitRegistry)) :
    Inv { F with free := F.free.erase ptr, systems := F.systems.set k s' } := by
  have hs := hI.registries s (List.mem_of_getElem? hk)
  have hptr := hI.named ptr u hu
  have hheld : F.HeldAt none u := by rwa [← hptr] at hu
  have hnew : ¬ s.unitRegistry.Owns u.ptr := by
    intro howns
    obtain ⟨w, hw, hwptr⟩ := UnitRegistry.owns_iff_mem_all.mp howns
    exact absurd (hI.apart (some k) none w u ⟨s, hk, hw⟩ hheld hwptr) (by simp)
  have hne {l : ℕ} {v : ProcessingUnit} (hv : F.HeldAt (some l) v) : v.ptr ≠ ptr := fun hvptr =>
    absurd (hI.apart (some l) none v u hv hheld (hvptr.trans hptr.symm)) (by simp)
  have hsys {l : ℕ} {v : ProcessingUnit} :
      Fleet.HeldAt { F with free := F.free.erase ptr, systems := F.systems.set k s' } (some l) v ↔
        F.HeldAt (some l) v ∨ l = k ∧ v = u := by
    rw [heldAt_set hk rfl, UnitRegistry.mem_all_add hs hadd]
    by_cases hl : l = k
    · subst hl
      simp [HeldAt, hk]
    · simp [hl]
  refine ⟨hI.toValid.of_held (registries_set hI.toValid (hs.add hnew hadd))
    (fun p w hw => hI.named p w (AList.lookup_erase_eq_some.mp hw).2) le_rfl (· = ptr) (some k)
    fun place v hv => ?_, ⟨?_, hI.written⟩⟩
  · cases place with
    | none =>
      obtain ⟨hvptr, hv⟩ := AList.lookup_erase_eq_some.mp hv
      exact .inl ⟨⟨v, hv, rfl⟩, hvptr⟩
    | some l =>
      rcases hsys.mp hv with hv | ⟨rfl, rfl⟩
      · exact .inl ⟨⟨v, hv, rfl⟩, hne hv⟩
      · exact .inr ⟨rfl, hptr, hI.below none v hheld⟩
  · have hunits : Fleet.units { F with free := F.free.erase ptr, systems := F.systems.set k s' } =
        F.units := by
      ext v
      constructor
      · rintro ⟨_ | l, hv⟩
        · exact ⟨none, (AList.lookup_erase_eq_some.mp hv).2⟩
        · rcases hsys.mp hv with hv | ⟨-, rfl⟩
          · exact ⟨some l, hv⟩
          · exact ⟨none, hheld⟩
      · rintro ⟨_ | l, hv⟩
        · by_cases hvptr : v.ptr = ptr
          · obtain rfl := hI.toValid.eq_of_ptr hv hheld (hvptr.trans hptr.symm)
            exact ⟨some k, hsys.mpr (.inr ⟨rfl, rfl⟩)⟩
          · exact ⟨none, AList.lookup_erase_eq_some.mpr ⟨hvptr, hv⟩⟩
        · exact ⟨some l, hsys.mpr (.inl hv)⟩
    exact hunits ▸ hI.closed

/-- **A registration**, and the unit it destroys if the system is full. -/
theorem register_units (hI : F.Inv) {constraints : TimingConstraints} {now : TimePoint}
    (h : F.register k ptr constraints now = some F') :
    ∃ s, F.systems[k]? = some s ∧
      (s.unitRegistry.count < s.unitRegistry.maxUnits ∧ F'.Inv ∨
        s.unitRegistry.maxUnits ≤ s.unitRegistry.count ∧ Destroys F F' ptr) := by
  obtain ⟨u, hu, h⟩ := Option.bind_eq_some_iff.mp h
  obtain ⟨s, hk, rfl⟩ := Option.map_eq_some_iff.mp h
  refine ⟨s, hk, ?_⟩
  rcases lt_or_ge s.unitRegistry.count s.unitRegistry.maxUnits with hroom | hfull
  · obtain ⟨id, hadd⟩ := @AxonVexSystem.add_of_room _ u constraints now hroom
    exact .inl ⟨hroom, hI.takenOver hk hu hadd⟩
  · refine .inr ⟨hfull, destroys_refused hI.toValid hk hu ?_⟩
    rw [AxonVexSystem.registerProcessingUnit_of_full hfull]

/-! ## New units -/

/-- **Units come to a place**, connected with live units only. -/
theorem Inv.grow (hI : F.Inv) (hreg : ∀ s ∈ F'.systems, s.unitRegistry.Valid)
    (hnamed : ∀ ptr u, F'.free.lookup ptr = some u → u.ptr = ptr) (site : Option ℕ)
    (hle : F.nextPtr ≤ F'.nextPtr) (hkept : ∀ place v, F.HeldAt place v → F'.HeldAt place v)
    (hheld : ∀ place v, F'.HeldAt place v → F.HeldAt place v ∨ place = site ∧
      (F.nextPtr ≤ v.ptr ∧ v.ptr < F'.nextPtr) ∧ ∀ q ∈ v.targets, F'.Live q.owner)
    (hstrayed : F'.strayed = F.strayed) : F'.Inv where
  toValid := by
    refine hI.toValid.of_held hreg hnamed hle (F.nextPtr ≤ ·) site fun place v hv => ?_
    rcases hheld place v hv with hv | ⟨hsite, hnew, -⟩
    · exact .inl ⟨⟨v, hv, rfl⟩, (hI.below place v hv).not_ge⟩
    · exact .inr ⟨hsite, hnew⟩
  closed := by
    refine hI.closed.grow (fun v ⟨place, hv⟩ => ⟨place, hkept place v hv⟩) fun v ⟨place, hv⟩ => ?_
    rcases hheld place v hv with hv | ⟨-, -, htargets⟩
    · exact .inl ⟨place, hv⟩
    · refine .inr fun b hb => ?_
      obtain ⟨q, hq, rfl⟩ := hb
      exact htargets q hq
  written := hstrayed.trans hI.written

theorem Inv.create (hI : F.Inv) (unit : NewUnit) : Inv { F with
    free := F.free.insert F.nextPtr { unit.unit with ptr := F.nextPtr }
    nextPtr := F.nextPtr + 1 } := by
  refine hI.grow hI.registries (fun p u hu => ?_) none (Nat.le_succ _) (fun place v hv => ?_)
    (fun place v hv => ?_) rfl
  · rcases AList.lookup_insert_eq_some.mp hu with ⟨rfl, rfl⟩ | ⟨-, hu⟩
    · rfl
    · exact hI.named p u hu
  · cases place with
    | none => exact (AList.lookup_insert_ne (hI.below none v hv).ne).trans hv
    | some l => exact hv
  · cases place with
    | none =>
      rcases AList.lookup_insert_eq_some.mp hv with ⟨hptr, rfl⟩ | ⟨-, hv⟩
      · refine .inr ⟨rfl, ⟨le_rfl, Nat.lt_succ_self _⟩, fun q hq => absurd hq ?_⟩
        rw [show ProcessingUnit.targets { unit.unit with ptr := F.nextPtr } = [] from unit.unwired]
        exact List.not_mem_nil
      · exact .inl hv
    | some l => exact .inl hv

/-- **A load, however it ends.** -/
theorem Inv.load (hI : F.Inv) {x : SpecLoad} (h : F.load k x = some F') : F'.Inv := by
  obtain ⟨s, hk, h⟩ := Option.bind_eq_some_iff.mp h
  obtain ⟨⟨s', res⟩, hrun, rfl⟩ := Option.map_eq_some_iff.mp h
  have hs := hI.registries s (List.mem_of_getElem? hk)
  have hjoined := x.joined_of_run (Outcome.toOption_eq_some.mp hrun) hs fun ptr howns => by
    obtain ⟨u, hu, rfl⟩ := UnitRegistry.owns_iff_mem_all.mp howns
    exact hI.below (some k) u ⟨s, hk, hu⟩
  refine hI.grow (registries_set hI.toValid hjoined.valid) hI.named (some k) (Nat.le_add_right _ _)
    (fun place v hv => ?_) (fun place v hv => ?_) rfl
  · cases place with
    | none => exact hv
    | some l =>
      rw [heldAt_set hk rfl]
      by_cases hl : l = k
      · subst hl
        obtain ⟨t, ht, hv⟩ := hv
        obtain rfl := Option.some.inj (hk.symm.trans ht)
        exact .inl ⟨rfl, hjoined.kept v hv⟩
      · exact .inr ⟨hl, hv⟩
  · cases place with
    | none => exact .inl hv
    | some l =>
      rcases (heldAt_set hk rfl).mp hv with ⟨rfl, hmem⟩ | ⟨-, hv⟩
      · rcases hjoined.joined v hmem with hold | ⟨hnew, htargets⟩
        · exact .inl ⟨s, hk, hold⟩
        · refine .inr ⟨rfl, hnew, fun q hq => ?_⟩
          obtain ⟨w, hw, hptr⟩ := UnitRegistry.owns_iff_mem_all.mp (htargets q hq)
          exact ⟨w, ⟨some l, (heldAt_set hk rfl).mpr (.inl ⟨rfl, hw⟩)⟩, hptr⟩
      · exact .inl hv

/-! ## Runs -/

/-- **One step.** -/
theorem step_inv (hI : F.Inv) (hG : F.Spares a) (h : F.step a = some F') : F'.Inv := by
  have hdestroys {ptr : UnitPtr} (hd : Destroys F F' ptr) (hun : F.Unlisted ptr) : F'.Inv :=
    ⟨hd.valid, (hd.sound_iff hI.toSound).mpr hun⟩
  cases a with
  | create unit => exact Option.some.inj h ▸ hI.create unit
  | register k unit constraints now =>
    obtain ⟨s, hk, ⟨-, hI'⟩ | ⟨hfull, hd⟩⟩ := register_units hI h
    · exact hI'
    · exact hdestroys hd (hG s hk hfull)
  | unregister k unitId =>
    obtain ⟨s, hk, rfl⟩ := Option.map_eq_some_iff.mp h
    cases hu : s.unitRegistry.find unitId with
    | none => exact hI.set_same hk (congrArg (·.1.unitRegistry) (AxonVexSystem.unregister_of_find hu))
    | some u => exact hdestroys (destroys_unregister hI.toValid hk hu) (hG s u hk hu)
  | assignInput k name unit unitPortId =>
    exact hI.onSystem (fun s => AxonVexSystem.unitRegistry_assignSystemPort ..) h
  | assignOutput k name unit unitPortId =>
    exact hI.onSystem (fun s => AxonVexSystem.unitRegistry_assignSystemPort ..) h
  | removeInput k name => exact hI.onSystem (fun s => AxonVexSystem.unitRegistry_removeSystemInputPort name) h
  | removeOutput k name => exact hI.onSystem (fun s => AxonVexSystem.unitRegistry_removeSystemOutputPort name) h
  | connect source target => exact Option.some.inj h ▸ hI.tryConnect source target
  | disconnect source target => exact Option.some.inj h ▸ hI.disconnect source target
  | disconnectAll source =>
    exact Option.some.inj h ▸ hI.modifyOut fun _ _ hq => absurd hq List.not_mem_nil
  | connectToSystem T k output l input =>
    exact Option.some.inj h ▸ hI.connectToSystem T k output l input
  | disconnectFromSystem T k output l input =>
    exact Option.some.inj h ▸ hI.disconnectFromSystem T k output l input
  | write source valid accepts => exact Option.some.inj h ▸ hI.write source valid accepts
  | load k x => exact hI.load h
  | start k caller env =>
    obtain ⟨s, hk, h⟩ := Option.bind_eq_some_iff.mp h
    obtain ⟨⟨s', ok⟩, hs', rfl⟩ := Option.map_eq_some_iff.mp h
    exact hI.set_same hk (AxonVexSystem.sameRegistries_start (Outcome.toOption_eq_some.mp hs')).1
  | pause k => exact hI.onSystem (fun s => AxonVexSystem.sameRegistries_pause.1) h
  | resume k => exact hI.onSystem (fun s => AxonVexSystem.sameRegistries_resume.1) h
  | stop k caller => exact hI.onSystem (fun s => AxonVexSystem.stop_registries.1) h

/-- **A step that stays sound spares the connections.** -/
theorem spares_of_step (hI : F.Inv) (hs' : F'.Sound) (h : F.step a = some F') : F.Spares a := by
  cases a with
  | register k unit constraints now =>
    intro s hk hfull
    obtain ⟨t, ht, ⟨hroom, -⟩ | ⟨-, hd⟩⟩ := register_units hI h
    · obtain rfl := Option.some.inj (hk.symm.trans ht)
      exact absurd hroom hfull.not_gt
    · exact (hd.sound_iff hI.toSound).mp hs'
  | unregister k unitId =>
    intro s u hk hu
    obtain ⟨t, ht, rfl⟩ := Option.map_eq_some_iff.mp h
    obtain rfl := Option.some.inj (hk.symm.trans ht)
    exact ((destroys_unregister hI.toValid hk hu).sound_iff hI.toSound).mp hs'
  | _ => trivial

theorem inv_of_init (h : machine.init F) : F.Inv := by
  obtain ⟨hnew, hfree, hstrayed⟩ := h
  have hnone (place : Option ℕ) (u : ProcessingUnit) : ¬ F.HeldAt place u := by
    cases place with
    | none =>
      intro hu
      rw [HeldAt, hfree] at hu
      cases hu
    | some k =>
      rintro ⟨s, hk, hu⟩
      obtain ⟨config, objectSize, rfl⟩ := hnew s (List.mem_of_getElem? hk)
      obtain ⟨id, hid⟩ := UnitRegistry.mem_all.mp hu
      exact absurd hid (by simp [AxonVexSystem.new])
  refine ⟨⟨fun s hs => ?_, fun ptr u hu => ?_, fun place u hu => absurd hu (hnone place u),
    fun place _ u _ hu => absurd hu (hnone place u)⟩,
    ⟨fun u hu => hu.elim fun place hu => absurd hu (hnone place u), hstrayed⟩⟩
  · obtain ⟨config, objectSize, rfl⟩ := hnew s hs
    exact UnitRegistry.valid_new _
  · rw [hfree] at hu
    cases hu

/-- A unit with an output port. -/
def camera : NewUnit where
  unit := { ProcessingUnit.new 0 "camera" with
    outputPorts := (∅ : Table ℤ OutPort).insert 0 ⟨"image", "double", 0, []⟩ }
  unwired := by decide

/-- A unit with an input port. -/
def viewer : NewUnit where
  unit := { ProcessingUnit.new 0 "viewer" with
    inputPorts := (∅ : Table ℤ InPort).insert 0 ⟨"image", "double", false, 0, 0, 0⟩ }
  unwired := by decide

/-- The viewer is unregistered, and the camera writes once more. -/
def unregisterViewer : List Label :=
  [.create camera, .create viewer, .register 0 0 {} 0, .register 0 1 {} 0,
    .connect ⟨0, .syncOutput, 0⟩ ⟨1, .syncInput, 0⟩, .unregister 0 2,
    .write ⟨0, .syncOutput, 0⟩ true fun _ => true]

/-- One system, without units. -/
def oneSystem : Fleet := { systems := [.new {} 0] }

theorem init_oneSystem : machine.init oneSystem :=
  ⟨fun _ hs => ⟨{}, 0, List.mem_singleton.mp hs⟩, rfl, rfl⟩

end Fleet

end AxonVex
