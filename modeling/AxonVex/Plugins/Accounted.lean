import AxonVex.Plugins.PluginManager

/-!
# Plugins/Accounted — every load is accounted for

`Accounted` says of each load that it is held by one manager, and its log is `initialize` and maybe
calls of `shutdown` that have thrown, or that no manager holds it and its log is complete: `shutdown`
exactly if `initialize` has returned true, `destroy` once, and after it `dlclose` once.

Each operation changes what one manager holds (`Accounted.shrink`, `Accounted.grow`) or moves it
(`Accounted.move`).
-/

namespace AxonVex

open Machinery

namespace PluginManager

/-- The instance of the load is in use. -/
def Load.Open (l : Load) (log : List Event) : Prop :=
  l.owned = true ∧ l.initializes = some true ∧
    ∃ k, log = .initializes :: List.replicate k .shutdown

/-- The load is over. -/
def Load.Finished (l : Load) (log : List Event) : Prop :=
  if l.owned then ∃ k, log = .initializes :: (List.replicate k .shutdown ++ .destroy :: l.closes) ∧
    (0 < k ↔ l.initializes = some true)
  else log = [] ∧ l.bare = false

variable {l : Load} {log : List Event}

theorem Load.Open.not_destroyed (h : l.Open log) : .destroy ∉ log := by
  obtain ⟨-, -, k, rfl⟩ := h
  simp [List.mem_replicate]

/-- One more `shutdown` that has thrown. -/
theorem Load.Open.shutdown (h : l.Open log) : l.Open (log ++ [.shutdown]) := by
  obtain ⟨howned, hinit, k, rfl⟩ := h
  exact ⟨howned, hinit, k + 1, by rw [List.replicate_succ']; rfl⟩

/-- A `shutdown` that has returned, and what comes after it. -/
theorem Load.Open.finish (h : l.Open log) :
    l.Finished (log ++ .shutdown :: .destroy :: l.closes) := by
  obtain ⟨howned, hinit, k, rfl⟩ := h
  rw [Load.Finished, if_pos howned]
  refine ⟨k + 1, ?_, by simp [hinit]⟩
  rw [List.replicate_succ']
  simp

theorem Load.Finished.destroyed (h : l.Finished log) (howned : l.owned = true) :
    .destroy ∈ log := by
  rw [Load.Finished, if_pos howned] at h
  obtain ⟨k, rfl, -⟩ := h
  simp

end PluginManager

namespace PluginHost

open PluginManager

/-- The loads that a manager holds. -/
def held (s : PluginHost) (m : ℕ) : List ℕ :=
  match s.managers m with
  | none => []
  | some manager => manager.ids

/-- **Every load is accounted for.** -/
structure Accounted (s : PluginHost) : Prop where
  once : ∀ m, (s.held m).Nodup
  owner : ∀ m m' i, i ∈ s.held m → i ∈ s.held m' → m = m'
  /-- what a manager holds is in use: it has not been destroyed, -/
  inUse : ∀ m i, i ∈ s.held m → i < s.loads ∧ (s.world i).Open (s.log i)
  /-- and what no manager holds is over. -/
  gone : ∀ i, i < s.loads → (∀ m, i ∉ s.held m) → (s.world i).Finished (s.log i)
  fresh : ∀ i, s.loads ≤ i → s.log i = []

variable {s t : PluginHost} {m i : ℕ} {manager : PluginManager} {ids : List ℕ}

theorem held_some (h : s.managers m = some manager) : s.held m = manager.ids := by
  simp only [held, h]

theorem held_none (h : s.managers m = none) : s.held m = [] := by
  simp only [held, h]

@[simp] theorem held_put_self : (s.put m manager).held m = manager.ids :=
  held_some (Function.update_self ..)

theorem held_of_managers (h : t.managers = s.managers) (m : ℕ) : t.held m = s.held m := by
  simp only [held, h]

theorem held_update {new : Option PluginManager} (h : t.managers = Function.update s.managers m new)
    {m' : ℕ} (hm : m' ≠ m) : t.held m' = s.held m' := by
  simp only [held, h, Function.update_of_ne hm]

/-- One manager lets loads go, that are then over. -/
theorem Accounted.shrink (h : s.Accounted) (m : ℕ) (hworld : t.world = s.world)
    (hloads : t.loads = s.loads) (hheld : ∀ m', m' ≠ m → t.held m' = s.held m')
    (hsub : ∀ i ∈ t.held m, i ∈ s.held m) (hnodup : (t.held m).Nodup)
    (hother : ∀ i, i ∉ s.held m → t.log i = s.log i)
    (hopen : ∀ i ∈ t.held m, (s.world i).Open (t.log i))
    (hfinished : ∀ i ∈ s.held m, i ∉ t.held m → (s.world i).Finished (t.log i)) :
    t.Accounted := by
  have hold (m' : ℕ) (i : ℕ) (hi : i ∈ t.held m') : i ∈ s.held m' := by
    by_cases hm : m' = m
    · subst hm
      exact hsub i hi
    · exact hheld m' hm ▸ hi
  constructor
  · intro m'
    by_cases hm : m' = m
    · subst hm
      exact hnodup
    · exact (hheld m' hm).symm ▸ h.once m'
  · exact fun m' m'' i hi hi' => h.owner m' m'' i (hold m' i hi) (hold m'' i hi')
  · intro m' i hi
    rw [hworld, hloads]
    obtain ⟨hlt, huse⟩ := h.inUse m' i (hold m' i hi)
    refine ⟨hlt, ?_⟩
    by_cases hm : m' = m
    · subst hm
      exact hopen i hi
    · have hnot : i ∉ s.held m := fun hin => hm (h.owner m' m i (hold m' i hi) hin)
      rw [hother i hnot]
      exact huse
  · intro i hlt hnone
    rw [hworld]
    by_cases hin : i ∈ s.held m
    · exact hfinished i hin (hnone m)
    · rw [hother i hin]
      refine h.gone i (hloads ▸ hlt) fun m' hi => ?_
      by_cases hm : m' = m
      · subst hm
        exact hin hi
      · exact hnone m' ((hheld m' hm).symm ▸ hi)
  · intro i hle
    have hnot : i ∉ s.held m := fun hin => by
      have hlt := (h.inUse m i hin).1
      omega
    rw [hother i hnot, h.fresh i (hloads ▸ hle)]

/-- There is one load more, and one manager may hold it. -/
theorem Accounted.grow (h : s.Accounted) (m : ℕ) (hworld : t.world = s.world)
    (hloads : t.loads = s.loads + 1) (hheld : ∀ m', m' ≠ m → t.held m' = s.held m')
    (hother : ∀ i, i ≠ s.loads → t.log i = s.log i)
    (hnew : t.held m = s.held m ++ [s.loads] ∧ (s.world s.loads).Open (t.log s.loads) ∨
      t.held m = s.held m ∧ (s.world s.loads).Finished (t.log s.loads)) : t.Accounted := by
  have hfresh (m' : ℕ) : s.loads ∉ s.held m' := fun hin =>
    Nat.lt_irrefl _ (h.inUse m' _ hin).1
  -- what a manager holds it has held before, or it is the new load in `m`
  have hold (m' i : ℕ) (hi : i ∈ t.held m') : i ∈ s.held m' ∨ i = s.loads ∧ m' = m := by
    by_cases hm : m' = m
    · subst hm
      rcases hnew with ⟨hids, -⟩ | ⟨hids, -⟩
      · rw [hids, List.mem_append, List.mem_singleton] at hi
        exact hi.imp_right fun hi => ⟨hi, rfl⟩
      · exact .inl (hids ▸ hi)
    · exact .inl (hheld m' hm ▸ hi)
  have hkept (m' i : ℕ) (hi : i ∈ s.held m') : i ∈ t.held m' := by
    by_cases hm : m' = m
    · subst hm
      rcases hnew with ⟨hids, -⟩ | ⟨hids, -⟩
      · exact hids ▸ List.mem_append_left _ hi
      · exact hids ▸ hi
    · exact (hheld m' hm).symm ▸ hi
  constructor
  · intro m'
    by_cases hm : m' = m
    · subst hm
      rcases hnew with ⟨hids, -⟩ | ⟨hids, -⟩
      · rw [hids]
        refine List.Nodup.append (h.once m') (List.nodup_singleton _) ?_
        rw [List.disjoint_singleton]
        exact hfresh m'
      · rw [hids]
        exact h.once m'
    · exact (hheld m' hm).symm ▸ h.once m'
  · intro m' m'' i hi hi'
    rcases hold m' i hi with hi | ⟨rfl, rfl⟩ <;> rcases hold m'' _ hi' with hi' | ⟨hlast, rfl⟩
    · exact h.owner m' m'' i hi hi'
    · exact absurd (hlast ▸ hi) (hfresh m')
    · exact absurd hi' (hfresh m'')
    · rfl
  · intro m' i hi
    rw [hworld, hloads]
    rcases hold m' i hi with hin | ⟨rfl, rfl⟩
    · obtain ⟨hlt, huse⟩ := h.inUse m' i hin
      rw [hother i (Nat.ne_of_lt hlt)]
      exact ⟨Nat.lt_succ_of_lt hlt, huse⟩
    · rcases hnew with ⟨-, huse⟩ | ⟨hids, -⟩
      · exact ⟨Nat.lt_succ_self _, huse⟩
      · exact absurd (hids ▸ hi) (hfresh m')
  · intro i hlt hnone
    rw [hworld]
    by_cases hi : i = s.loads
    · subst hi
      rcases hnew with ⟨hids, -⟩ | ⟨-, hfinished⟩
      · exact absurd (hids ▸ List.mem_append_right _ (List.mem_singleton_self _)) (hnone m)
      · exact hfinished
    · rw [hother i hi]
      exact h.gone i (by omega) fun m' hin => hnone m' (hkept m' i hin)
  · intro i hle
    rw [hother i (by omega), h.fresh i (by omega)]

/-- What one manager holds goes to another, that holds nothing. -/
theorem Accounted.move (h : s.Accounted) {source target : ℕ}
    (hempty : s.held target = []) (hworld : t.world = s.world) (hloads : t.loads = s.loads)
    (hlog : t.log = s.log) (hsource : t.held source = [])
    (htarget : t.held target = s.held source)
    (hheld : ∀ m', m' ≠ source → m' ≠ target → t.held m' = s.held m') : t.Accounted := by
  -- where a load is held after the move
  let place (m' : ℕ) : ℕ := if m' = target then source else m'
  have hold (m' i : ℕ) (hi : i ∈ t.held m') : m' ≠ source ∧ i ∈ s.held (place m') := by
    by_cases hs : m' = source
    · rw [hs, hsource] at hi
      exact absurd hi List.not_mem_nil
    · refine ⟨hs, ?_⟩
      by_cases hm : m' = target
      · simp only [place, if_pos hm]
        rwa [hm, htarget] at hi
      · simp only [place, if_neg hm]
        rwa [hheld m' hs hm] at hi
  constructor
  · intro m'
    by_cases hs : m' = source
    · rw [hs, hsource]
      exact List.nodup_nil
    · by_cases hm : m' = target
      · rw [hm, htarget]
        exact h.once source
      · rw [hheld m' hs hm]
        exact h.once m'
  · intro m' m'' i hi hi'
    obtain ⟨hs, hin⟩ := hold m' i hi
    obtain ⟨hs', hin'⟩ := hold m'' i hi'
    have hplace := h.owner _ _ i hin hin'
    simp only [place] at hplace
    split_ifs at hplace with hm hm' hm'
    · rw [hm, hm']
    · exact absurd hplace.symm hs'
    · exact absurd hplace hs
    · exact hplace
  · intro m' i hi
    rw [hworld, hloads, hlog]
    exact h.inUse _ i (hold m' i hi).2
  · intro i hlt hnone
    rw [hworld, hlog]
    refine h.gone i (hloads ▸ hlt) fun m' hin => ?_
    by_cases hs : m' = source
    · exact hnone target (htarget.symm ▸ hs ▸ hin)
    · by_cases hm : m' = target
      · rw [hm, hempty] at hin
        exact absurd hin List.not_mem_nil
      · exact hnone m' ((hheld m' hs hm).symm ▸ hin)
  · intro i hle
    rw [hlog]
    exact h.fresh i (hloads ▸ hle)

/-! ## `shutdown`, `destroy` and `dlclose` -/

theorem retire_frame (s : PluginHost) (i : ℕ) : (s.retire i).1.world = s.world ∧
    (s.retire i).1.loads = s.loads ∧ (s.retire i).1.managers = s.managers := by
  rw [retire]
  split_ifs <;> exact ⟨rfl, rfl, rfl⟩

theorem retire_log_ne {j : ℕ} (hj : j ≠ i) : (s.retire i).1.log j = s.log j := by
  rw [retire]
  split_ifs
  · exact Function.update_of_ne hj ..
  · exact (Function.update_of_ne hj ..).trans (Function.update_of_ne hj ..)

/-- A `shutdown` that throws. -/
theorem retire_threw (h : s.shutdownThrows i = true) :
    (s.retire i).2 = true ∧ (s.retire i).1.log i = s.log i ++ [.shutdown] := by
  rw [retire, if_pos h]
  exact ⟨rfl, Function.update_self ..⟩

/-- A `shutdown` that returns. -/
theorem retire_returned (h : s.shutdownThrows i = false) : (s.retire i).2 = false ∧
    (s.retire i).1.log i = s.log i ++ .shutdown :: .destroy :: (s.world i).closes := by
  rw [retire, if_neg (by simp [h])]
  refine ⟨rfl, ?_⟩
  have hlog : (s.note i .shutdown).log i = s.log i ++ [.shutdown] := Function.update_self ..
  have hself : ((s.note i .shutdown).dispose i).log i =
      (s.note i .shutdown).log i ++ .destroy :: (s.world i).closes := Function.update_self ..
  rw [hself, hlog, List.append_assoc]
  rfl

/-- Whether the next `shutdown` of another load throws does not change. -/
theorem shutdownThrows_retire {j : ℕ} (hj : j ≠ i) :
    (s.retire i).1.shutdownThrows j = s.shutdownThrows j := by
  rw [shutdownThrows, shutdownThrows, (retire_frame s i).1, retire_log_ne hj]

theorem retireAll_frame (ids : List ℕ) : (s.retireAll ids).1.world = s.world ∧
    (s.retireAll ids).1.loads = s.loads ∧ (s.retireAll ids).1.managers = s.managers := by
  induction ids generalizing s with
  | nil => exact ⟨rfl, rfl, rfl⟩
  | cons i ids ih =>
    obtain ⟨hworld, hloads, hmanagers⟩ := retire_frame s i
    rw [retireAll]
    split_ifs
    · exact ⟨hworld, hloads, hmanagers⟩
    · obtain ⟨hworld', hloads', hmanagers'⟩ := ih (s := (s.retire i).1)
      exact ⟨hworld'.trans hworld, hloads'.trans hloads, hmanagers'.trans hmanagers⟩

theorem retireAll_log_of_not_mem {j : ℕ} (hj : j ∉ ids) : (s.retireAll ids).1.log j = s.log j := by
  induction ids generalizing s with
  | nil => rfl
  | cons i ids ih =>
    rw [List.mem_cons, not_or] at hj
    rw [retireAll]
    split_ifs
    · exact retire_log_ne hj.1
    · rw [ih hj.2, retire_log_ne hj.1]

/-- **Every `shutdown` returns**: every load is over. -/
theorem retireAll_returned (hnodup : ids.Nodup) (h : ∀ i ∈ ids, s.shutdownThrows i = false) :
    (s.retireAll ids).2 = false ∧ ∀ i ∈ ids, (s.retireAll ids).1.log i =
      s.log i ++ .shutdown :: .destroy :: (s.world i).closes := by
  induction ids generalizing s with
  | nil => exact ⟨rfl, fun i hi => absurd hi List.not_mem_nil⟩
  | cons i ids ih =>
    obtain ⟨hnot, hnodup⟩ := List.nodup_cons.mp hnodup
    obtain ⟨hreturned, hlog⟩ := retire_returned (h i (List.mem_cons_self ..))
    have hne (j : ℕ) (hj : j ∈ ids) : j ≠ i := fun hji => hnot (hji ▸ hj)
    obtain ⟨hall, hlogs⟩ := ih (s := (s.retire i).1) hnodup fun j hj =>
      (shutdownThrows_retire (hne j hj)).trans (h j (List.mem_cons_of_mem _ hj))
    rw [retireAll, if_neg (by simp [hreturned])]
    refine ⟨hall, fun j hj => ?_⟩
    rcases List.mem_cons.mp hj with rfl | hj
    · rw [retireAll_log_of_not_mem hnot, hlog]
    · rw [hlogs j hj, retire_log_ne (hne j hj), (retire_frame s i).1]

/-- **Some `shutdown` throws**: its load is not over. -/
theorem retireAll_threw (hnodup : ids.Nodup) (h : ¬ ∀ i ∈ ids, s.shutdownThrows i = false) :
    (s.retireAll ids).2 = true ∧
      ∃ i ∈ ids, (s.retireAll ids).1.log i = s.log i ++ [.shutdown] := by
  induction ids generalizing s with
  | nil => exact absurd (fun i hi => absurd hi List.not_mem_nil) h
  | cons i ids ih =>
    obtain ⟨hnot, hnodup⟩ := List.nodup_cons.mp hnodup
    rw [retireAll]
    cases hi : s.shutdownThrows i with
    | true =>
      obtain ⟨hthrew, hlog⟩ := retire_threw hi
      rw [if_pos hthrew]
      exact ⟨hthrew, i, List.mem_cons_self .., hlog⟩
    | false =>
      have hne (j : ℕ) (hj : j ∈ ids) : j ≠ i := fun hji => hnot (hji ▸ hj)
      have hrest : ¬ ∀ j ∈ ids, (s.retire i).1.shutdownThrows j = false := fun hall => h fun j hj => by
        rcases List.mem_cons.mp hj with rfl | hj
        · exact hi
        · rw [← shutdownThrows_retire (hne j hj)]
          exact hall j hj
      obtain ⟨hthrew, j, hj, hlog⟩ := ih hnodup hrest
      rw [if_neg (by simp [(retire_returned hi).1])]
      exact ⟨hthrew, j, List.mem_cons_of_mem _ hj, by rw [hlog, retire_log_ne (hne j hj)]⟩

/-- If the first `shutdown` returns, its load is destroyed. -/
theorem retireAll_destroyed (hnot : i ∉ ids) (hi : s.shutdownThrows i = false) :
    .destroy ∈ (s.retireAll (i :: ids)).1.log i := by
  obtain ⟨hreturned, hlog⟩ := retire_returned hi
  rw [retireAll, if_neg (by simp [hreturned]), retireAll_log_of_not_mem hnot, hlog]
  simp

/-- If the first throws, nothing else happens. -/
theorem retireAll_first (hi : s.shutdownThrows i = true) :
    s.retireAll (i :: ids) = s.retire i := by
  rw [retireAll, if_pos (retire_threw hi).1]

/-! ## When a step keeps the account -/

/-- The load that comes next is accounted for: the loader hands out no handle alone, `name()` returns,
and so does the `shutdown()` of an instance that is refused for its name. -/
def CleanLoad (s : PluginHost) (manager : PluginManager) : Prop :=
  manager.loader_ = true → (s.world s.loads).bare = false ∧
    ((s.world s.loads).owned = true → (s.world s.loads).initializes = some true →
      ∃ name, (s.world s.loads).name = some name ∧
        (manager.hasName name = true → (s.world s.loads).shutdownThrows 0 = false))

/-- Every `shutdown()` returns, or the first one throws. -/
def CleanUnload (s : PluginHost) (ids : List ℕ) : Prop :=
  (∀ i ∈ ids, s.shutdownThrows i = false) ∨ ∃ i ∈ ids.head?, s.shutdownThrows i = true

/-- The next entry of a directory is accounted for. -/
def CleanScan (s : PluginHost) (scan : Scan) : Prop :=
  ∀ manager, s.managers scan.manager = some manager →
    ∀ entry ∈ scan.entries.head?, isPlugin entry = true → s.CleanLoad manager

/-- The call keeps the account; a destructor is left by no exception. -/
def CleanCall (s : PluginHost) : Label → Prop
  | .loadPlugin m => ∀ manager, s.managers m = some manager → s.CleanLoad manager
  | .unloadAllPlugins m => s.CleanUnload (s.held m)
  | .moveAssign source target => source ≠ target → s.CleanUnload (s.held target)
  | .destruct m => ∀ i ∈ s.held m, s.shutdownThrows i = false
  | _ => True

/-- The step keeps the account. -/
def Clean (s : PluginHost) (a : Label) : Prop :=
  match s.scan with
  | some scan => s.CleanScan scan
  | none => s.CleanCall a

/-- Whether a directory scan is under way does not matter. -/
theorem accounted_scan (scan : Option Scan) :
    ({ s with scan := scan } : PluginHost).Accounted ↔ s.Accounted :=
  ⟨fun h => ⟨h.once, h.owner, h.inUse, h.gone, h.fresh⟩,
    fun h => ⟨h.once, h.owner, h.inUse, h.gone, h.fresh⟩⟩

/-- What a manager says last does not matter, nor does the order of its map. -/
theorem Accounted.put_same (h : s.Accounted) (hm : s.managers m = some manager)
    {new : PluginManager} (hids : new.ids.Perm manager.ids) : (s.put m new).Accounted := by
  have hheld : ((s.put m new).held m).Perm (s.held m) := by
    rw [held_put_self, held_some hm]
    exact hids
  refine h.shrink m rfl rfl (fun m' hmm => held_update rfl hmm) (fun i hi => hheld.mem_iff.mp hi)
    (hheld.nodup_iff.mpr (h.once m)) (fun _ _ => rfl)
    (fun i hi => (h.inUse m i (hheld.mem_iff.mp hi)).2) fun i hi hnot => ?_
  exact absurd (hheld.mem_iff.mpr hi) hnot

/-- A load that no manager holds is over. -/
theorem Accounted.put_iff (h : s.Accounted) (hm : s.managers m = some manager) (t : PluginHost)
    (new : PluginManager) (hworld : t.world = s.world) (hloads : t.loads = s.loads + 1)
    (hmanagers : t.managers = s.managers) (hother : ∀ i, i ≠ s.loads → t.log i = s.log i)
    (hids : new.ids = manager.ids) :
    (t.put m new).Accounted ↔ (s.world s.loads).Finished (t.log s.loads) := by
  have hheld (m' : ℕ) : (t.put m new).held m' = s.held m' := by
    by_cases hmm : m' = m
    · subst hmm
      rw [held_put_self, held_some hm, hids]
    · rw [held_update rfl hmm, held_of_managers hmanagers]
  constructor
  · intro ht
    have hgone := ht.gone s.loads (hloads ▸ Nat.lt_succ_self _) fun m' hin => by
      have hlt := (h.inUse m' _ (hheld m' ▸ hin)).1
      exact Nat.lt_irrefl _ hlt
    have hsame : (t.put m new).world = s.world := hworld
    rwa [hsame] at hgone
  · exact fun hfinished => h.grow m hworld hloads (fun m' _ => hheld m') hother
      (.inr ⟨hheld m, hfinished⟩)

/-- A load that gives no instance. -/
theorem finished_of_not_owned {l : Load} {log : List Event} (howned : l.owned = false) :
    l.Finished log ↔ log = [] ∧ l.bare = false := by
  rw [Load.Finished, if_neg (by simp [howned])]

/-- An instance that is not destroyed is not over. -/
theorem not_finished {l : Load} {log : List Event} (howned : l.owned = true)
    (hlog : .destroy ∉ log) : ¬ l.Finished log := fun h => hlog (h.destroyed howned)

theorem note_log_self (s : PluginHost) (i : ℕ) (e : Event) :
    (s.note i e).log i = s.log i ++ [e] := Function.update_self ..

theorem dispose_log_self (s : PluginHost) (i : ℕ) :
    (s.dispose i).log i = s.log i ++ .destroy :: (s.world i).closes := Function.update_self ..

/-- After `initialize()` has returned true. -/
theorem Accounted.register_iff (h : s.Accounted) (hm : s.managers m = some manager)
    (new : PluginManager) (hnew : new.plugins_ = manager.plugins_)
    (howned : (s.world s.loads).owned = true)
    (hinit : (s.world s.loads).initializes = some true) (ht : t = s.countLoad.note s.loads .initializes) :
    ((t.register s.loads new).1.put m (t.register s.loads new).2.1).Accounted ↔
      ∃ name, (s.world s.loads).name = some name ∧
        (manager.hasName name = true → (s.world s.loads).shutdownThrows 0 = false) := by
  have hids : new.ids = manager.ids := congrArg (List.map Prod.snd) hnew
  have hworld : t.world = s.world := by rw [ht]; rfl
  have hloads : t.loads = s.loads + 1 := by rw [ht]; rfl
  have hmanagers : t.managers = s.managers := by rw [ht]; rfl
  have hother (i : ℕ) (hi : i ≠ s.loads) : t.log i = s.log i := by
    rw [ht]
    exact Function.update_of_ne hi ..
  have hself : t.log s.loads = [.initializes] := by
    rw [ht, note_log_self]
    exact congrArg (· ++ [Event.initializes]) (h.fresh _ (Nat.le_refl _))
  have hthrows : t.shutdownThrows s.loads = (s.world s.loads).shutdownThrows 0 := by
    rw [shutdownThrows, hworld, hself]
    rfl
  have hsame (name : String) : new.hasName name = manager.hasName name := by
    rw [hasName, hasName, hnew]
  rw [register, hworld]
  cases hname : (s.world s.loads).name with
  | none =>
    refine (h.put_iff hm t new hworld hloads hmanagers hother hids).trans
      (iff_of_false ?_ (by simp))
    rw [hself]
    exact not_finished howned (by simp)
  | some name =>
    dsimp only
    rw [hsame]
    by_cases hdup : manager.hasName name = true
    · obtain ⟨hrworld, hrloads, hrmanagers⟩ := retire_frame t s.loads
      rw [if_pos hdup]
      refine (h.put_iff hm (t.retire s.loads).1
        { new with lastError_ := "duplicate plugin name: " ++ name } (hrworld.trans hworld) (hrloads.trans hloads) (hrmanagers.trans hmanagers)
        (fun i hi => (retire_log_ne hi).trans (hother i hi)) hids).trans ?_
      cases hshutdown : (s.world s.loads).shutdownThrows 0 with
      | true =>
        rw [(retire_threw (hthrows.trans hshutdown)).2, hself]
        refine iff_of_false (not_finished howned (by simp)) ?_
        rintro ⟨name', hname', hclean⟩
        obtain ⟨⟩ := hname'
        exact absurd (hclean hdup) (by simp)
      | false =>
        rw [(retire_returned (hthrows.trans hshutdown)).2, hself, hworld]
        have hopen : (s.world s.loads).Open [.initializes] := ⟨howned, hinit, 0, rfl⟩
        exact iff_of_true hopen.finish ⟨name, rfl, fun _ => rfl⟩
    · rw [if_neg hdup]
      refine iff_of_true ?_ ⟨name, rfl, fun hdup' => absurd hdup' hdup⟩
      refine h.grow m hworld hloads (fun m' hmm => ?_) hother (.inl ⟨?_, ?_⟩)
      · exact (held_update rfl hmm).trans (held_of_managers hmanagers m')
      · rw [held_put_self, held_some hm, ← hids]
        exact List.map_append
      · have hlog : (t.put m { new with plugins_ := new.plugins_ ++ [(name, s.loads)] }).log s.loads =
            [.initializes] := hself
        rw [hlog]
        exact ⟨howned, hinit, 0, rfl⟩

/-- **A load is accounted for** exactly if it is clean. -/
theorem Accounted.loadPlugin_iff (h : s.Accounted) (hm : s.managers m = some manager) :
    ((s.loadPlugin manager).1.put m (s.loadPlugin manager).2.1).Accounted ↔
      s.CleanLoad manager := by
  rw [loadPlugin]
  by_cases hloader : manager.loader_ = true
  swap
  · rw [if_neg hloader]
    exact iff_of_true (h.put_same hm (.refl _)) fun hl => absurd hl hloader
  rw [if_pos hloader, CleanLoad, forall_prop_of_true hloader, loaded]
  have hworld : s.countLoad.world = s.world := rfl
  have hlog : s.log s.loads = [] := h.fresh _ (Nat.le_refl _)
  rw [hworld]
  by_cases hthrows : (s.world s.loads).throws = true
  · have howned : (s.world s.loads).owned = false := by simp [Load.owned, hthrows]
    have hbare : (s.world s.loads).bare = false := by simp [Load.bare, hthrows]
    rw [if_pos hthrows]
    refine (h.put_iff hm s.countLoad { manager with lastError_ := "" } rfl rfl rfl
      (fun _ _ => rfl) rfl).trans
      ((finished_of_not_owned howned).trans ?_)
    exact iff_of_true ⟨hlog, hbare⟩ ⟨hbare, fun hown => by simp [howned] at hown⟩
  rw [if_neg hthrows]
  by_cases hgiven : ((s.world s.loads).instance_ && (s.world s.loads).destroy) = true
  swap
  · have hnot := Bool.eq_false_iff.mpr hgiven
    have howned : (s.world s.loads).owned = false := by
      rw [Load.owned, Bool.and_assoc, hnot, Bool.and_false]
    rw [if_pos (by rw [hnot]; rfl)]
    refine (h.put_iff hm s.countLoad { manager with
      lastError_ := if (s.world s.loads).error = "" then "plugin load failed"
        else (s.world s.loads).error } rfl rfl rfl (fun _ _ => rfl) rfl).trans
      ((finished_of_not_owned howned).trans ?_)
    exact ⟨fun hf => ⟨hf.2, fun hown => by simp [howned] at hown⟩, fun hc => ⟨hlog, hc.1⟩⟩
  have howned : (s.world s.loads).owned = true := by
    rw [Load.owned, Bool.and_assoc, hgiven, Bool.and_true, Bool.not_eq_true',
      Bool.eq_false_iff.mpr hthrows]
  have hbare : (s.world s.loads).bare = false := by
    rw [Load.bare, hgiven, Bool.not_true, Bool.and_false]
  rw [if_neg (by rw [hgiven]; simp)]
  -- an instance whose `initialize()` does not return true is destroyed at once
  have hfailed (new : PluginManager) (hnew : new.ids = manager.ids)
      (hinit : (s.world s.loads).initializes ≠ some true) :
      (((s.countLoad.note s.loads .initializes).dispose s.loads).put m new).Accounted := by
    refine (h.put_iff hm ((s.countLoad.note s.loads .initializes).dispose s.loads) new rfl rfl rfl
      (fun i hi => ?_) hnew).mpr ?_
    · exact (Function.update_of_ne hi ..).trans (Function.update_of_ne hi ..)
    · have hself : s.countLoad.log s.loads = [] := hlog
      rw [Load.Finished, if_pos howned, dispose_log_self, note_log_self, hself]
      exact ⟨0, rfl, by simp [hinit]⟩
  cases hinit : (s.world s.loads).initializes with
  | none =>
    exact iff_of_true (hfailed _ rfl (by simp [hinit])) ⟨hbare, fun _ hi => by cases hi⟩
  | some ok =>
    cases ok with
    | false =>
      exact iff_of_true (hfailed _ rfl (by simp [hinit])) ⟨hbare, fun _ hi => by cases hi⟩
    | true =>
      refine (h.register_iff hm { manager with lastError_ := "" } rfl howned hinit rfl).trans ?_
      exact ⟨fun hname => ⟨hbare, fun _ _ => hname⟩, fun hclean => hclean.2 howned rfl⟩

/-- A `shutdown` has thrown, and its instance is held still. -/
theorem Accounted.retire_threw (h : s.Accounted) (hi : i ∈ s.held m)
    (hthrows : s.shutdownThrows i = true) : (s.retire i).1.Accounted := by
  obtain ⟨hworld, hloads, hmanagers⟩ := retire_frame s i
  have hheld := held_of_managers hmanagers
  refine h.shrink m hworld hloads (fun m' _ => hheld m') (fun j hj => hheld m ▸ hj)
    ((hheld m).symm ▸ h.once m) (fun j hj => retire_log_ne fun hji => hj (hji ▸ hi)) (fun j hj => ?_)
    fun j hj hnot => absurd ((hheld m).symm ▸ hj) hnot
  rw [hheld] at hj
  obtain ⟨-, huse⟩ := h.inUse m j hj
  by_cases hji : j = i
  · subst hji
    rw [(PluginHost.retire_threw hthrows).2]
    exact huse.shutdown
  · rw [retire_log_ne hji]
    exact huse

/-- A plugin leaves the map when its `shutdown` has returned. -/
theorem Accounted.unloadPlugin (h : s.Accounted) (hm : s.managers m = some manager)
    (name : String) : (s.unloadPlugin m manager name).Accounted := by
  rw [PluginHost.unloadPlugin]
  split
  · exact h
  · next p hfind =>
    obtain ⟨hp, front, back, hplugins, hfront⟩ := List.find?_eq_some_iff_append.mp hfind
    have hids : s.held m = front.map Prod.snd ++ p.2 :: back.map Prod.snd := by
      rw [held_some hm, ids, hplugins, List.map_append, List.map_cons]
    have hmem : p.2 ∈ s.held m := hids ▸ List.mem_append_right _ (List.mem_cons_self ..)
    have hnodup := hids ▸ h.once m
    cases hthrows : s.shutdownThrows p.2 with
    | true =>
      rw [if_pos (PluginHost.retire_threw hthrows).1]
      exact h.retire_threw hmem hthrows
    | false =>
      obtain ⟨hreturned, hlog⟩ := retire_returned hthrows
      obtain ⟨hworld, hloads, hmanagers⟩ := retire_frame s p.2
      have hcons : (p :: back).eraseP (fun q => q.1 == name) = back := List.eraseP_cons_of_pos hp
      have herase : manager.plugins_.eraseP (fun q => q.1 == name) = front ++ back := by
        rw [hplugins, List.eraseP_append_right _ (fun q hq => by simpa using hfront q hq), hcons]
      rw [if_neg (by simp [hreturned]), herase]
      have hleft : ((s.retire p.2).1.put m { manager with plugins_ := front ++ back }).held m =
          front.map Prod.snd ++ back.map Prod.snd := by
        rw [held_put_self, ids, List.map_append]
      -- what is left is what was held, but for the plugin
      have hin (j : ℕ) : j ∈ front.map Prod.snd ++ back.map Prod.snd →
          j ∈ s.held m ∧ j ≠ p.2 := by
        intro hj
        rw [List.nodup_middle, List.nodup_cons] at hnodup
        refine ⟨?_, fun hjp => hnodup.1 (hjp ▸ hj)⟩
        rw [hids]
        exact (List.mem_append.mp hj).elim (List.mem_append_left _)
          fun hj => List.mem_append_right _ (List.mem_cons_of_mem _ hj)
      refine h.shrink m hworld hloads (fun m' hmm => ?_) (fun j hj => (hin j (hleft ▸ hj)).1) ?_
        (fun j hj => retire_log_ne fun hjp => hj (hjp ▸ hmem)) (fun j hj => ?_) fun j hj hnot => ?_
      · exact (held_update rfl hmm).trans (held_of_managers hmanagers m')
      · rw [hleft]
        exact (List.nodup_cons.mp (List.nodup_middle.mp hnodup)).2
      · obtain ⟨hheld, hne⟩ := hin j (hleft ▸ hj)
        have hsame : (s.retire p.2).1.log j = s.log j := retire_log_ne hne
        exact hsame.symm ▸ (h.inUse m j hheld).2
      · have hjp : j = p.2 := by
          rw [hids, List.mem_append, List.mem_cons] at hj
          rw [hleft, List.mem_append, not_or] at hnot
          tauto
        rw [hjp]
        exact hlog.symm ▸ (h.inUse m _ hmem).2.finish

/-- What a manager holds is over when every `shutdown` has returned. -/
theorem Accounted.retireAll (h : s.Accounted) (m : ℕ)
    (hreturns : ∀ i ∈ s.held m, s.shutdownThrows i = false) (hworld : t.world = s.world)
    (hloads : t.loads = s.loads) (hlog : t.log = (s.retireAll (s.held m)).1.log)
    (hheld : ∀ m', m' ≠ m → t.held m' = s.held m') (hempty : t.held m = []) : t.Accounted := by
  obtain ⟨-, hlogs⟩ := retireAll_returned (h.once m) hreturns
  refine h.shrink m hworld hloads hheld (fun i hi => ?_) (hempty ▸ List.nodup_nil) (fun i hi => ?_)
    (fun i hi => ?_) fun i hi _ => ?_
  · exact absurd (hempty ▸ hi) List.not_mem_nil
  · rw [hlog, retireAll_log_of_not_mem hi]
  · exact absurd (hempty ▸ hi) List.not_mem_nil
  · rw [hlog, hlogs i hi]
    exact (h.inUse m i hi).2.finish

/-- **A `shutdown` that throws** ends the unloading of a manager: what is in its map is in use still
exactly if nothing was destroyed before. -/
theorem Accounted.retireAll_iff (h : s.Accounted) (m : ℕ)
    (hthrows : ¬ ∀ i ∈ s.held m, s.shutdownThrows i = false) :
    (s.retireAll (s.held m)).1.Accounted ↔ s.CleanUnload (s.held m) := by
  obtain ⟨-, -, hmanagers⟩ := retireAll_frame (s := s) (s.held m)
  have hheld := held_of_managers hmanagers
  cases hids : s.held m with
  | nil =>
    rw [hids] at hthrows
    exact absurd (fun i hi => absurd hi List.not_mem_nil) hthrows
  | cons i rest =>
    have hnodup := hids ▸ h.once m
    have hi : i ∈ s.held m := hids ▸ List.mem_cons_self ..
    cases hfirst : s.shutdownThrows i with
    | true =>
      rw [retireAll_first hfirst]
      exact iff_of_true (h.retire_threw hi hfirst) (.inr ⟨i, rfl, hfirst⟩)
    | false =>
      refine iff_of_false (fun ht => ?_) ?_
      · -- the first instance was destroyed, and stands in the map
        have hdestroyed := retireAll_destroyed (List.nodup_cons.mp hnodup).1 hfirst
        rw [← hids] at ht hdestroyed
        have hkept : i ∈ (s.retireAll (s.held m)).1.held m := by
          rw [hheld]
          exact hi
        exact (ht.inUse m i hkept).2.not_destroyed hdestroyed
      · rintro (hall | ⟨j, hj, hthrows⟩)
        · rw [hids] at hthrows
          exact hthrows hall
        · obtain ⟨⟩ := hj
          exact absurd (hfirst.symm.trans hthrows) (by simp)

/-- A destructor that an exception leaves does not destroy every instance. -/
theorem Accounted.destruct_iff (h : s.Accounted) (hm : s.managers m = some manager) :
    (s.destruct m manager).Accounted ↔ ∀ i ∈ s.held m, s.shutdownThrows i = false := by
  obtain ⟨hworld, hloads, hmanagers⟩ := retireAll_frame (s := s) manager.ids
  have hids := held_some hm
  have hempty : (s.destruct m manager).held m = [] := held_none (Function.update_self ..)
  have hheld (m' : ℕ) (hmm : m' ≠ m) : (s.destruct m manager).held m' = s.held m' :=
    (held_update (s := (s.retireAll manager.ids).1) rfl hmm).trans (held_of_managers hmanagers m')
  constructor
  · intro ht
    by_contra hthrows
    rw [hids] at hthrows
    obtain ⟨-, i, hi, hlog⟩ := retireAll_threw (hids ▸ h.once m) hthrows
    obtain ⟨hlt, huse⟩ := h.inUse m i (hids ▸ hi)
    have hfinished := ht.gone i (hloads.symm ▸ hlt) fun m' hin => by
      by_cases hmm : m' = m
      · rw [hmm, hempty] at hin
        exact List.not_mem_nil hin
      · exact hmm (h.owner m' m i (hheld m' hmm ▸ hin) (hids ▸ hi))
    have hworld' : (s.destruct m manager).world = s.world := hworld
    have hlog' : (s.destruct m manager).log i = s.log i ++ [.shutdown] := hlog
    rw [hworld', hlog'] at hfinished
    exact huse.shutdown.not_destroyed (hfinished.destroyed huse.1)
  · exact fun hreturns => h.retireAll m hreturns hworld hloads (by rw [hids]; rfl) hheld hempty

/-- The unloading of a manager that is then empty. -/
theorem Accounted.emptied (h : s.Accounted) (hm : s.managers m = some manager)
    (hreturns : ∀ i ∈ s.held m, s.shutdownThrows i = false) {new : PluginManager}
    (hnew : new.ids = []) : ((s.retireAll manager.ids).1.put m new).Accounted := by
  obtain ⟨hworld, hloads, hmanagers⟩ := retireAll_frame (s := s) manager.ids
  refine h.retireAll m hreturns hworld hloads (by rw [held_some hm]; rfl) (fun m' hmm => ?_)
    (held_put_self.trans hnew)
  exact (held_update (s := (s.retireAll manager.ids).1) rfl hmm).trans
    (held_of_managers hmanagers m')

theorem Accounted.unloadAllPlugins_iff (h : s.Accounted) (hm : s.managers m = some manager) :
    (s.unloadAllPlugins m manager).Accounted ↔ s.CleanUnload (s.held m) := by
  have hids := held_some hm
  rw [unloadAllPlugins]
  by_cases hreturns : ∀ i ∈ s.held m, s.shutdownThrows i = false
  · have hreturned := (retireAll_returned (h.once m) hreturns).1
    rw [if_neg (by rw [← hids, hreturned]; simp)]
    exact iff_of_true (h.emptied hm hreturns rfl) (.inl hreturns)
  · have hthrew := (retireAll_threw (h.once m) hreturns).1
    rw [if_pos (hids ▸ hthrew), ← hids]
    exact h.retireAll_iff m hreturns

/-- What a manager holds goes to one that is new, or has been emptied. -/
theorem Accounted.put_move (h : s.Accounted) {source target : ℕ} (hne : source ≠ target)
    (hsource : s.managers source = some manager) (hempty : s.held target = []) :
    ((s.put source movedFrom).put target manager).Accounted := by
  have hgiven : ((s.put source movedFrom).put target manager).held source = [] :=
    (held_update (s := s.put source movedFrom) rfl hne).trans held_put_self
  have htaken : ((s.put source movedFrom).put target manager).held target = s.held source := by
    rw [held_put_self, held_some hsource]
  refine h.move hempty rfl rfl rfl hgiven htaken fun m' hs hm => ?_
  exact (held_update (s := s.put source movedFrom) rfl hm).trans (held_update rfl hs)

theorem Accounted.moveAssign_iff (h : s.Accounted) {source target : ℕ} (hne : source ≠ target)
    {from_ : PluginManager} (hsource : s.managers source = some from_)
    (htarget : s.managers target = some manager) :
    (s.moveAssign source target from_ manager).Accounted ↔ s.CleanUnload (s.held target) := by
  have hids := held_some htarget
  rw [PluginHost.moveAssign]
  by_cases hreturns : ∀ i ∈ s.held target, s.shutdownThrows i = false
  · have hreturned := (retireAll_returned (h.once target) hreturns).1
    obtain ⟨-, -, hmanagers⟩ := retireAll_frame (s := s) manager.ids
    rw [if_neg (by rw [← hids, hreturned]; simp)]
    refine iff_of_true ?_ (.inl hreturns)
    -- the target is emptied first, and then gets the map of the source
    have hemptied : ((s.retireAll manager.ids).1.put target movedFrom).Accounted :=
      h.emptied htarget hreturns rfl
    have hsource' : ((s.retireAll manager.ids).1.put target movedFrom).managers source =
        some from_ :=
      (Function.update_of_ne hne ..).trans ((congrFun hmanagers source).trans hsource)
    have hmoved := hemptied.put_move hne hsource' held_put_self
    have hsame : (((s.retireAll manager.ids).1.put target movedFrom).put source movedFrom).put target
        from_ = ((s.retireAll manager.ids).1.put source movedFrom).put target from_ := by
      simp only [put]
      have hswap := Function.update_comm hne.symm (some movedFrom) (some movedFrom)
        (s.retireAll manager.ids).1.managers
      rw [hswap, Function.update_idem]
    exact hsame ▸ hmoved
  · have hthrew := (retireAll_threw (h.once target) hreturns).1
    rw [if_pos (hids ▸ hthrew), ← hids]
    exact h.retireAll_iff target hreturns

/-- The next entry of a directory. -/
theorem Accounted.stepScan_iff (h : s.Accounted) (scan : Scan)
    (hm : s.managers scan.manager = some manager) :
    (s.stepScan scan manager).Accounted ↔ s.CleanScan scan := by
  have hclean : s.CleanScan scan ↔
      ∀ entry ∈ scan.entries.head?, isPlugin entry = true → s.CleanLoad manager := by
    refine ⟨fun hclean => hclean manager hm, fun hclean manager' hm' => ?_⟩
    obtain rfl := Option.some.inj (hm.symm.trans hm')
    exact hclean
  rw [hclean]
  rw [stepScan]
  cases hentries : scan.entries with
  | nil =>
    refine iff_of_true ?_ fun entry hentry => by cases hentry
    exact (accounted_scan none).mpr (h.put_same hm (.refl _))
  | cons entry rest =>
    dsimp only
    by_cases hplugin : isPlugin entry = true
    · rw [if_pos hplugin, accounted_scan, h.loadPlugin_iff hm]
      refine ⟨fun hclean entry' _ _ => hclean, fun hclean => hclean entry rfl hplugin⟩
    · rw [if_neg hplugin, accounted_scan]
      refine iff_of_true h fun entry' hentry hplugin' => ?_
      obtain ⟨⟩ := hentry
      exact absurd hplugin' hplugin

/-- A manager that is constructed holds nothing. -/
theorem Accounted.construct (h : s.Accounted) (hm : s.managers m = none) (loader : Bool) :
    (s.put m { loader_ := loader }).Accounted := by
  have hempty := held_none hm
  have hempty' : (s.put m { loader_ := loader }).held m = [] := held_put_self
  refine h.shrink m rfl rfl (fun m' hmm => held_update rfl hmm) (fun i hi => ?_)
    (hempty' ▸ List.nodup_nil) (fun _ _ => rfl) (fun i hi => ?_) fun i hi _ => ?_
  · exact absurd (hempty' ▸ hi) List.not_mem_nil
  · exact absurd (hempty' ▸ hi) List.not_mem_nil
  · exact absurd (hempty ▸ hi) List.not_mem_nil

/-- A directory is opened, or is not. -/
theorem Accounted.beginScan (h : s.Accounted) (hm : s.managers m = some manager)
    (entries : Except String (List (String × Bool))) : (s.beginScan m manager entries).Accounted := by
  unfold PluginHost.beginScan
  split_ifs
  · cases entries with
    | error reason => exact h.put_same hm (.refl _)
    | ok entries => exact (accounted_scan _).mpr (h.put_same hm (.refl _))
  · exact h.put_same hm (.refl _)

/-- Outside a directory scan. -/
theorem Accounted.call_iff (h : s.Accounted) {a : Label} (hcall : s.call a = some t) :
    t.Accounted ↔ s.CleanCall a := by
  cases a with
  | construct m loader =>
    obtain ⟨hfree, rfl⟩ := guarded hcall
    exact iff_of_true (h.construct (Option.isNone_iff_eq_none.mp hfree) loader) trivial
  | loadPlugin m =>
    obtain ⟨manager, hm, rfl⟩ := Option.map_eq_some_iff.mp hcall
    refine (h.loadPlugin_iff hm).trans ⟨fun hclean manager' hm' => ?_, fun hclean => hclean _ hm⟩
    obtain rfl := Option.some.inj (hm.symm.trans hm')
    exact hclean
  | loadPluginsFromDirectory m entries =>
    obtain ⟨manager, hm, rfl⟩ := Option.map_eq_some_iff.mp hcall
    exact iff_of_true (h.beginScan hm entries) trivial
  | scan => cases hcall
  | reorder m plugins =>
    obtain ⟨manager, hm, hsome⟩ := Option.bind_eq_some_iff.mp hcall
    obtain ⟨hperm, rfl⟩ := guarded hsome
    exact iff_of_true (h.put_same hm ((List.isPerm_iff.mp hperm).map Prod.snd)) trivial
  | setLoader m loader =>
    obtain ⟨manager, hm, rfl⟩ := Option.map_eq_some_iff.mp hcall
    exact iff_of_true (h.put_same hm (.refl _)) trivial
  | unloadPlugin m name =>
    obtain ⟨manager, hm, rfl⟩ := Option.map_eq_some_iff.mp hcall
    exact iff_of_true (h.unloadPlugin hm name) trivial
  | unloadAllPlugins m =>
    obtain ⟨manager, hm, rfl⟩ := Option.map_eq_some_iff.mp hcall
    exact h.unloadAllPlugins_iff hm
  | moveConstruct source target =>
    obtain ⟨hfree, hsome⟩ := Option.ite_none_right_eq_some.mp hcall
    obtain ⟨from_, hsource, rfl⟩ := Option.map_eq_some_iff.mp hsome
    have hnone := Option.isNone_iff_eq_none.mp hfree
    have hne : source ≠ target := fun heq => by
      rw [heq, hnone] at hsource
      cases hsource
    exact iff_of_true (h.put_move hne hsource (held_none hnone)) trivial
  | moveAssign source target =>
    rw [call] at hcall
    split_ifs at hcall with heq
    · obtain ⟨⟩ := hcall
      exact iff_of_true h fun hne => absurd heq hne
    · obtain ⟨from_, hsource, hsome⟩ := Option.bind_eq_some_iff.mp hcall
      obtain ⟨manager, htarget, rfl⟩ := Option.map_eq_some_iff.mp hsome
      exact (h.moveAssign_iff heq hsource htarget).trans
        ⟨fun hclean _ => hclean, fun hclean => hclean heq⟩
  | destruct m =>
    obtain ⟨manager, hm, rfl⟩ := Option.map_eq_some_iff.mp hcall
    exact h.destruct_iff hm

/-- **A step keeps the account exactly if it is clean.** -/
theorem Accounted.step_iff (h : s.Accounted) {a : Label} (hstep : s.step a = some t) :
    t.Accounted ↔ s.Clean a := by
  rw [step] at hstep
  split_ifs at hstep
  cases hscan : s.scan with
  | some scan =>
    simp only [hscan] at hstep
    simp only [Clean, hscan]
    cases a with
    | scan =>
      obtain ⟨manager, hm, rfl⟩ := Option.map_eq_some_iff.mp hstep
      exact h.stepScan_iff scan hm
    | _ => cases hstep
  | none =>
    simp only [hscan] at hstep
    simp only [Clean, hscan]
    exact h.call_iff hstep

/-- **Every run accounts for every load exactly as long as its steps are clean**: in whatever order
plugins are loaded and unloaded and managers are moved and destroyed, and however the loader and the
plugins behave. -/
theorem accounted_runs_iff (world : ℕ → Load) (as : List Label) :
    host.Always Accounted { world := world } as ↔ host.Allowed Clean { world := world } as := by
  have hinit : ({ world := world } : PluginHost).Accounted :=
    ⟨fun _ => List.nodup_nil, fun _ _ i hi => absurd hi List.not_mem_nil,
      fun _ i hi => absurd hi List.not_mem_nil, fun i hi => absurd hi (Nat.not_lt_zero i),
      fun _ _ => rfl⟩
  exact Machine.always_iff_allowed (fun _ _ _ _ _ _ => trivial)
    (fun _ _ _ _ h hstep => h.step_iff hstep) (I := fun _ => True) trivial hinit as

/-- Two plugins, and the first `shutdown()` of the second throws. -/
def secondThrows : ℕ → Load
  | 0 => { name := some "a" }
  | _ => { name := some "b", shutdownThrows := fun n => n == 0 }

/-- When `unloadAllPlugins` is left by the exception of the second plugin, the first one is destroyed
and stands in the map, from where the destructor destroys it again. -/
theorem destroyed_in_map : ¬ ∀ s, host.Reachable s → s.Accounted := by
  have hrun : (host.exec { world := secondThrows }
      [.construct 0 true, .loadPlugin 0, .loadPlugin 0, .unloadAllPlugins 0]).any (fun s =>
        (s.held 0).contains 0 && (s.log 0).contains .destroy) = true := by decide +kernel
  intro h
  obtain ⟨s, hexec, hs⟩ := (Option.any_eq_true _ _).mp hrun
  have hinit : host.Reachable { world := secondThrows } := .init rfl
  obtain ⟨hheld, hdestroyed⟩ := Bool.and_eq_true_iff.mp hs
  have huse := (h s (hinit.exec hexec)).inUse 0 0 (by simpa using hheld)
  exact huse.2.not_destroyed (by simpa using hdestroyed)

end PluginHost

end AxonVex
