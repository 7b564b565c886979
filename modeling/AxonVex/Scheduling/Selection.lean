import AxonVex.Scheduling.TaskPool
import Mathlib.Data.List.Induction
import Mathlib.Data.List.Sort

/-!
# Scheduling/Selection — the order of a cycle, at once and pick by pick

    tasks_ ──reactivate──▸ ready candidates ──sort, or rotate──▸ ids
    tasks_ ──schedule…()──▸ id ──claim──▸ tasks_ ──schedule…()──▸ id ──▸ …

`selectReadyTasksForCycle` computes the order of a cycle at once; each `schedule…()` scans the table
for one task.  Sorting the candidates is picking the least again and again (`picks_sorted`).  The round
robin is another matter: the pick goes on after the last selected task wherever the table has it, the
batch only where it is among the candidates.  So the two agree, under the same policy and where the
keys differ, exactly if the cursor is on a ready task or has all ready tasks on one side
(`select_eq_picks_iff`).

The table is a list in the order of its iteration, which no operation here changes.
-/

namespace AxonVex

open Machinery

namespace Selection

open RealTimeScheduler

/-- An id of `tasks_` with its task. -/
abbrev TaskEntry := ℕ × SchedulerTask

/-- `time_point::max()`: a whole number of microseconds is below it if it is representable. -/
def timePointMax : TimePoint := 9223372036854776

/-- `microseconds::max()`. -/
def microsecondsMax : Microseconds := 9223372036854775807

/-- A ready task of the table. -/
def entryReady (now : TimePoint) (e : TaskEntry) : Bool := isReady now e.2

/-! ## Rotation -/

/-- The elements from the one after the first that `p` holds of, around to it. -/
def rotateAfter {α : Type*} (p : α → Bool) (l : List α) : List α :=
  match l.findIdx? p with
  | some i => l.drop (i + 1) ++ l.take (i + 1)
  | none => l

section Rotate

variable {α β : Type*} {p : α → Bool} {l before after : List α} {a : α}

theorem rotateAfter_none (h : ∀ x ∈ l, p x = false) : rotateAfter p l = l := by
  have hnone : l.findIdx? p = none := List.findIdx?_eq_none_iff.mpr h
  rw [rotateAfter, hnone]

theorem rotateAfter_append (hbefore : ∀ x ∈ before, p x = false) (ha : p a = true) :
    rotateAfter p (before ++ a :: after) = after ++ (before ++ [a]) := by
  have hsome : (before ++ a :: after).findIdx? p = some before.length := by
    rw [List.findIdx?_append, List.findIdx?_eq_none_iff.mpr hbefore, List.findIdx?_cons, ha]
    simp
  have hsplit : before ++ a :: after = (before ++ [a]) ++ after := by simp
  have hlength : before.length + 1 = (before ++ [a]).length := by simp
  rw [rotateAfter, hsome]
  dsimp only
  rw [hsplit, hlength, List.drop_left, List.take_left]

/-- A rotation leaves the list as it is, or exchanges two parts of it. -/
theorem rotateAfter_cases (p : α → Bool) (l : List α) :
    (∀ x ∈ l, p x = false) ∧ rotateAfter p l = l ∨
      ∃ before a after, l = before ++ a :: after ∧ (∀ x ∈ before, p x = false) ∧ p a = true ∧
        rotateAfter p l = after ++ (before ++ [a]) := by
  by_cases hex : ∃ x ∈ l, p x = true
  · obtain ⟨x, hx, hpx⟩ := hex
    obtain ⟨a, before, after, hbefore, ha, hl, -⟩ :=
      List.exists_of_eraseP hx hpx
    have hnot : ∀ x ∈ before, p x = false := fun x hx => by simpa using hbefore x hx
    exact .inr ⟨before, a, after, hl, hnot, ha, hl ▸ rotateAfter_append hnot ha⟩
  · have hnone : ∀ x ∈ l, p x = false := fun x hx => by
      by_contra hpx
      exact hex ⟨x, hx, by simpa using hpx⟩
    exact .inl ⟨hnone, rotateAfter_none hnone⟩

theorem rotateAfter_perm (p : α → Bool) (l : List α) : (rotateAfter p l).Perm l := by
  rcases rotateAfter_cases p l with ⟨-, heq⟩ | ⟨before, a, after, hl, -, -, heq⟩
  · rw [heq]
  · have hsplit : before ++ a :: after = (before ++ [a]) ++ after := by simp
    rw [heq, hl, hsplit]
    exact List.perm_append_comm

theorem rotateAfter_map {q : β → Bool} {f : α → β} (h : ∀ x ∈ l, q (f x) = p x) :
    rotateAfter q (l.map f) = (rotateAfter p l).map f := by
  rcases rotateAfter_cases p l with ⟨hnone, heq⟩ | ⟨before, a, after, hl, hbefore, ha, heq⟩
  · rw [heq, rotateAfter_none]
    intro y hy
    obtain ⟨x, hx, rfl⟩ := List.mem_map.mp hy
    rw [h x hx, hnone x hx]
  · subst hl
    rw [heq, List.map_append, List.map_cons, rotateAfter_append]
    · simp
    · intro y hy
      obtain ⟨x, hx, rfl⟩ := List.mem_map.mp hy
      rw [h x (by simp [hx]), hbefore x hx]
    · rw [h a (by simp), ha]

/-- Rotating on from a list that was rotated. -/
theorem rotateAfter_of_rotated {q : α → Bool} (heq : rotateAfter q l = before ++ a :: after)
    (ha : p a = true) (hother : ∀ x ∈ before ++ after, p x = false) :
    rotateAfter p l = after ++ (before ++ [a]) := by
  -- whatever the first rotation did, it exchanged two parts
  obtain ⟨front, back, hl, hrotated⟩ : ∃ front back, l = front ++ back ∧
      back ++ front = before ++ a :: after := by
    rcases rotateAfter_cases q l with ⟨-, hsame⟩ | ⟨x, c, y, hl, -, -, hsame⟩
    · exact ⟨[], l, rfl, by rw [List.append_nil, ← hsame, heq]⟩
    · exact ⟨x ++ [c], y, by rw [hl]; simp, by rw [← hsame, heq]⟩
  subst hl
  have hnot {x : α} (hx : x ∈ before ∨ x ∈ after) : p x = false :=
    hother x (List.mem_append.mpr hx)
  rcases List.append_eq_append_iff.mp hrotated with ⟨mid, rfl, rfl⟩ | ⟨mid, rfl, hmid⟩
  · have hsplit : mid ++ a :: after ++ back = mid ++ a :: (after ++ back) := by simp
    have hmid : ∀ x ∈ mid, p x = false := fun x hx => hnot (.inl (List.mem_append_right _ hx))
    rw [hsplit, rotateAfter_append hmid ha]
    simp
  · cases mid with
    | nil =>
      rw [List.nil_append] at hmid
      subst hmid
      rw [List.append_nil, List.cons_append]
      have hhead : rotateAfter p ([] ++ a :: (after ++ before)) = after ++ before ++ ([] ++ [a]) :=
        rotateAfter_append (fun x hx => absurd hx List.not_mem_nil) ha
      rw [List.nil_append] at hhead
      rw [hhead]
      simp
    | cons c mid =>
      rw [List.cons_append, List.cons.injEq] at hmid
      obtain ⟨rfl, rfl⟩ := hmid
      have hsplit : front ++ (before ++ a :: mid) = (front ++ before) ++ a :: mid := by simp
      rw [hsplit, rotateAfter_append _ ha]
      · simp
      · intro x hx
        rcases List.mem_append.mp hx with hx | hx
        · exact hnot (.inr (by simp [hx]))
        · exact hnot (.inl hx)

/-- **Rotating what a filter leaves** is filtering the rotated list, if the element is left too, or
if all that is left is on one side of it. -/
theorem filter_rotateAfter {r : α → Bool} (hbefore : ∀ x ∈ before, p x = false) (ha : p a = true)
    (hafter : ∀ x ∈ after, p x = false)
    (hside : r a = true ∨ before.filter r = [] ∨ after.filter r = []) :
    (rotateAfter p (before ++ a :: after)).filter r =
      rotateAfter p ((before ++ a :: after).filter r) := by
  have hbefore' : ∀ x ∈ before.filter r, p x = false := fun x hx =>
    hbefore x (List.mem_of_mem_filter hx)
  rw [rotateAfter_append hbefore ha, List.filter_append, List.filter_append, List.filter_append]
  cases hra : r a with
  | true =>
    have hcons : (a :: after).filter r = a :: after.filter r := List.filter_cons_of_pos hra
    rw [hcons, rotateAfter_append hbefore' ha]
    simp [hra]
  | false =>
    have hcons : (a :: after).filter r = after.filter r := List.filter_cons_of_neg (by simp [hra])
    have hrest : ∀ x ∈ before.filter r ++ after.filter r, p x = false := by
      intro x hx
      rcases List.mem_append.mp hx with hx | hx
      · exact hbefore' x hx
      · exact hafter x (List.mem_of_mem_filter hx)
    rw [hcons, rotateAfter_none hrest]
    rcases hside with hr | hnil | hnil
    · exact absurd (hra.symm.trans hr) Bool.false_ne_true
    · simp [hnil, hra]
    · simp [hnil, hra]

end Rotate

/-! ## One pick -/

/-- The scan for the least key below the bound: the key and the entry found so far. -/
def scanLeast (now : TimePoint) (key : SchedulerTask → ℤ) (found : Option ℤ × Option TaskEntry)
    (e : TaskEntry) : Option ℤ × Option TaskEntry :=
  if entryReady now e && found.1.all (key e.2 < ·) then (some (key e.2), some e) else found

/-- The ready task of least key, and of those the first; 0 if there is none below the bound. -/
def pickLeast (now : TimePoint) (key : SchedulerTask → ℤ) (bound : Option ℤ)
    (entries : List TaskEntry) : ℕ :=
  (entries.foldl (scanLeast now key) (bound, none)).2.elim 0 Prod.fst

/-- The value of a priority, as the comparison reads it. -/
def priorityKey (task : SchedulerTask) : ℤ := task.constraints.priority.value

/-- The absolute deadline. -/
def deadlineKey (task : SchedulerTask) : ℤ := task.nextExecution + task.constraints.deadline

def periodKey (task : SchedulerTask) : ℤ := task.constraints.period

/-- `schedulePriorityBased()`. -/
def schedulePriorityBased (now : TimePoint) (entries : List TaskEntry) : ℕ :=
  pickLeast now priorityKey none entries

/-- `scheduleEarliestDeadlineFirst()`. -/
def scheduleEarliestDeadlineFirst (now : TimePoint) (entries : List TaskEntry) : ℕ :=
  pickLeast now deadlineKey (some timePointMax) entries

/-- `scheduleRateMonotonic()`. -/
def scheduleRateMonotonic (now : TimePoint) (entries : List TaskEntry) : ℕ :=
  pickLeast now periodKey (some microsecondsMax) entries

/-- `scheduleRoundRobin()`: the id, or 0, and `lastSelectedTask_`. -/
def scheduleRoundRobin (now : TimePoint) (cursor : ℕ) (entries : List TaskEntry) : ℕ × ℕ :=
  match (rotateAfter (fun e => e.1 == cursor) entries).find? (entryReady now) with
  | some e => (e.1, e.1)
  | none => (0, cursor)

/-- The pick of the policy, and `lastSelectedTask_`; the fallback where no custom scheduler is set. -/
def pick (policy : SchedulingPolicy) (now : TimePoint) (cursor : ℕ) (entries : List TaskEntry) :
    ℕ × ℕ :=
  match policy with
  | .priorityBased => (schedulePriorityBased now entries, cursor)
  | .earliestDeadlineFirst => (scheduleEarliestDeadlineFirst now entries, cursor)
  | .rateMonotonic => (scheduleRateMonotonic now entries, cursor)
  | .roundRobin => scheduleRoundRobin now cursor entries
  | .custom => (schedulePriorityBased now entries, cursor)

/-- The task with the id is claimed. -/
def claimEntry (id : ℕ) (entries : List TaskEntry) : List TaskEntry :=
  entries.map fun e => if e.1 = id then (e.1, { e.2 with executing := true }) else e

/-- **Pick by pick**: up to `n` picks at the same instant, each task claimed when it is picked, until
there is none. -/
def picks (policy : SchedulingPolicy) (now : TimePoint) :
    ℕ → ℕ → List TaskEntry → List ℕ × ℕ
  | 0, cursor, _ => ([], cursor)
  | n + 1, cursor, entries =>
    let (id, cursor) := pick policy now cursor entries
    if id = 0 then ([], cursor)
    else
      let (ids, cursor) := picks policy now n cursor (claimEntry id entries)
      (id :: ids, cursor)

/-! ## The batch -/

/-- `ReadyCandidate`. -/
structure ReadyCandidate where
  taskId : ℕ
  priority : SchedulerPriority
  deadline : TimePoint
  period : Microseconds
  deriving DecidableEq, Repr

def readyCandidate (task : SchedulerTask) : ReadyCandidate where
  taskId := task.taskId
  priority := task.constraints.priority
  deadline := task.nextExecution + task.constraints.deadline
  period := task.constraints.period

/-- The pass over the table: what it reactivates. -/
def reactivateEntries (now : TimePoint) (entries : List TaskEntry) : List TaskEntry :=
  entries.map fun e => (e.1, reactivate now e.2)

/-- `std::sort` by a key. -/
def sortBy (key : ReadyCandidate → ℤ) (candidates : List ReadyCandidate) : List ReadyCandidate :=
  candidates.mergeSort fun a b => key a ≤ key b

/-- The order that the policy puts the candidates in. -/
def orderCandidates (policy : SchedulingPolicy) (cursor : ℕ) (candidates : List ReadyCandidate) :
    List ReadyCandidate :=
  match policy with
  | .priorityBased => sortBy (fun c => c.priority.value) candidates
  | .earliestDeadlineFirst => sortBy (·.deadline) candidates
  | .rateMonotonic => sortBy (·.period) candidates
  | .roundRobin => rotateAfter (fun c => c.taskId == cursor) candidates
  | .custom => candidates

/-- **`selectReadyTasksForCycle()`**: `readyTaskIds_` and `lastSelectedTask_`. -/
def selectReadyTasksForCycle (policy : SchedulingPolicy) (now : TimePoint) (cursor : ℕ)
    (entries : List TaskEntry) : List ℕ × ℕ :=
  let candidates := ((reactivateEntries now entries).filter (entryReady now)).map
    fun e => readyCandidate e.2
  let ids := (orderCandidates policy cursor candidates).map (·.taskId)
  (ids, if policy = .roundRobin then ids.getLast?.getD cursor else cursor)

/-! ## The keys -/

/-- What the policy orders the tasks by; the round robin has no key but the place in the table. -/
def policyKey : SchedulingPolicy → SchedulerTask → ℤ
  | .priorityBased => priorityKey
  | .earliestDeadlineFirst => deadlineKey
  | .rateMonotonic => periodKey
  | .roundRobin => fun task => task.taskId
  | .custom => priorityKey

/-- Where the scan for the least key starts from. -/
def policyBound : SchedulingPolicy → Option ℤ
  | .earliestDeadlineFirst => some timePointMax
  | .rateMonotonic => some microsecondsMax
  | .priorityBased => none
  | .roundRobin => none
  | .custom => none

/-- **When the batch is what the picks make of it**: no ready task has the id 0 that stands for none,
none has a key that the scan does not find, and the round robin's cursor is not on a task out of the
ready set with ready tasks before and after it. -/
structure Agrees (policy : SchedulingPolicy) (now : TimePoint) (cursor : ℕ)
    (entries : List TaskEntry) : Prop where
  nonzero : ∀ e ∈ entries, entryReady now e = true → e.1 ≠ 0
  below : ∀ e ∈ entries, entryReady now e = true → ∀ b ∈ policyBound policy, policyKey policy e.2 < b
  onCursor : policy = .roundRobin → ∀ before c after, entries = before ++ c :: after → c.1 = cursor →
    entryReady now c = true ∨ before.filter (entryReady now) = [] ∨
      after.filter (entryReady now) = []

/-- A table in the order of its iteration. -/
structure TaskTable where
  entries : List TaskEntry
  nodup : (entries.map Prod.fst).Nodup
  ids : ∀ e ∈ entries, e.2.taskId = e.1

namespace TaskTable

/-- The table after the pass that reactivates. -/
def reactivate (t : TaskTable) (now : TimePoint) : TaskTable where
  entries := reactivateEntries now t.entries
  nodup := by
    have hkeys : (reactivateEntries now t.entries).map Prod.fst = t.entries.map Prod.fst := by
      rw [reactivateEntries, List.map_map]
      rfl
    rw [hkeys]
    exact t.nodup
  ids := by
    intro e' he'
    obtain ⟨e, he, rfl⟩ := List.mem_map.mp he'
    dsimp only
    rw [← t.ids e he, RealTimeScheduler.reactivate]
    split_ifs <;> rfl

end TaskTable

/-! ## The scan finds the least -/

section Scan

variable {now : TimePoint} {key : SchedulerTask → ℤ} {bound : Option ℤ} {e : TaskEntry}
  {entries seen : List TaskEntry}

/-- A ready task that the scan may take. -/
def Eligible (now : TimePoint) (key : SchedulerTask → ℤ) (bound : Option ℤ) (e : TaskEntry) : Prop :=
  entryReady now e = true ∧ ∀ b ∈ bound, key e.2 < b

/-- **What the scan has found** in the entries it has seen. -/
inductive Found (now : TimePoint) (key : SchedulerTask → ℤ) (bound : Option ℤ)
    (seen : List TaskEntry) : Option ℤ × Option TaskEntry → Prop
  | nothing : (∀ e ∈ seen, ¬ Eligible now key bound e) → Found now key bound seen (bound, none)
  | entry {e : TaskEntry} : e ∈ seen → Eligible now key bound e →
      (∀ e' ∈ seen, Eligible now key bound e' → key e.2 ≤ key e'.2) →
      Found now key bound seen (some (key e.2), some e)

theorem Found.scan {found : Option ℤ × Option TaskEntry} (hf : Found now key bound seen found)
    (e : TaskEntry) : Found now key bound (seen ++ [e]) (scanLeast now key found e) := by
  have hmem {e' : TaskEntry} (h : e' ∈ seen ++ [e]) : e' ∈ seen ∨ e' = e := by simpa using h
  cases hf with
  | nothing hnone =>
    by_cases helig : Eligible now key bound e
    · have htake : scanLeast now key (bound, none) e = (some (key e.2), some e) := by
        rw [scanLeast, if_pos]
        rw [helig.1, Bool.true_and]
        cases bound with
        | none => rfl
        | some b => exact decide_eq_true (helig.2 b rfl)
      rw [htake]
      refine .entry (by simp) helig fun e' he' helig' => ?_
      rcases hmem he' with hold | rfl
      · exact absurd helig' (hnone e' hold)
      · exact le_refl _
    · have hskip : scanLeast now key (bound, none) e = (bound, none) := by
        rw [scanLeast, if_neg]
        rintro hboth
        rw [Bool.and_eq_true] at hboth
        refine helig ⟨hboth.1, fun b hb => ?_⟩
        obtain rfl := Option.mem_def.mp hb
        exact of_decide_eq_true hboth.2
      rw [hskip]
      refine .nothing fun e' he' => ?_
      rcases hmem he' with hold | rfl
      · exact hnone e' hold
      · exact helig
  | @entry best hbest helig hleast =>
    rw [scanLeast]
    split_ifs with htake
    · rw [Bool.and_eq_true, Option.all_some, decide_eq_true_eq] at htake
      have helig' : Eligible now key bound e :=
        ⟨htake.1, fun b hb => htake.2.trans (helig.2 b hb)⟩
      refine .entry (by simp) helig' fun e' he' he => ?_
      rcases hmem he' with hold | rfl
      · exact htake.2.le.trans (hleast e' hold he)
      · exact le_refl _
    · refine .entry (by simp [hbest]) helig fun e' he' he => ?_
      rcases hmem he' with hold | rfl
      · exact hleast e' hold he
      · rw [he.1, Bool.true_and, Option.all_some, decide_eq_true_eq] at htake
        exact not_lt.mp htake

theorem found_foldl (now : TimePoint) (key : SchedulerTask → ℤ) (bound : Option ℤ)
    (entries : List TaskEntry) :
    Found now key bound entries (entries.foldl (scanLeast now key) (bound, none)) := by
  induction entries using List.reverseRecOn with
  | nil => exact .nothing fun _ h => absurd h List.not_mem_nil
  | append_singleton seen e ih =>
    rw [List.foldl_append]
    exact ih.scan e

/-- **The pick** is 0 if no task is eligible, and else the id of an eligible task of least key. -/
theorem pickLeast_cases (now : TimePoint) (key : SchedulerTask → ℤ) (bound : Option ℤ)
    (entries : List TaskEntry) : pickLeast now key bound entries = 0 ∧
      (∀ e ∈ entries, ¬ Eligible now key bound e) ∨
    ∃ e ∈ entries, pickLeast now key bound entries = e.1 ∧ Eligible now key bound e ∧
      ∀ e' ∈ entries, Eligible now key bound e' → key e.2 ≤ key e'.2 := by
  have hf := found_foldl now key bound entries
  rw [pickLeast]
  generalize entries.foldl (scanLeast now key) (bound, none) = found at hf
  cases hf with
  | nothing hnone => exact .inl ⟨rfl, hnone⟩
  | entry hmem helig hleast => exact .inr ⟨_, hmem, rfl, helig, hleast⟩

end Scan

/-! ## Claiming -/

section Claim

variable {now : TimePoint} {id : ℕ} {entries : List TaskEntry}

@[simp] theorem claimEntry_keys : (claimEntry id entries).map Prod.fst = entries.map Prod.fst := by
  rw [claimEntry, List.map_map]
  refine List.map_congr_left fun e _ => ?_
  by_cases he : e.1 = id <;> simp [he]

@[simp] theorem length_claimEntry : (claimEntry id entries).length = entries.length :=
  List.length_map _

/-- A claimed task is not ready, and the others are what they were. -/
theorem filter_claimEntry : (claimEntry id entries).filter (entryReady now) =
    (entries.filter (entryReady now)).filter fun e => decide (e.1 ≠ id) := by
  induction entries with
  | nil => rfl
  | cons e entries ih =>
    rw [claimEntry, List.map_cons, ← claimEntry]
    by_cases he : e.1 = id
    · have hclaimed : entryReady now (e.1, { e.2 with executing := true }) = false := by
        simp [entryReady, isReady]
      rw [if_pos he, List.filter_cons, hclaimed, ih, List.filter_cons]
      cases entryReady now e <;> simp [he]
    · rw [if_neg he, List.filter_cons, List.filter_cons, ih]
      cases entryReady now e <;> simp [he]

end Claim

/-! ## Pick by pick -/

section Picks

variable {policy : SchedulingPolicy} {now : TimePoint} {n cursor : ℕ} {e : TaskEntry}
  {entries L : List TaskEntry}

/-- The pick of a policy with a key. -/
theorem pick_sorted (hpolicy : policy ≠ .roundRobin) : pick policy now cursor entries =
    (pickLeast now (policyKey policy) (policyBound policy) entries, cursor) := by
  cases policy <;> first | rfl | exact absurd rfl hpolicy

/-- A pick is 0, or the id of a task that the policy can find. -/
theorem pick_cases : (pick policy now cursor entries).1 = 0 ∨
    ∃ e ∈ entries, (pick policy now cursor entries).1 = e.1 ∧
      Eligible now (policyKey policy) (policyBound policy) e := by
  by_cases hpolicy : policy = .roundRobin
  · subst hpolicy
    rw [pick, scheduleRoundRobin]
    cases hfind : (rotateAfter (fun e => e.1 == cursor) entries).find? (entryReady now) with
    | none => exact .inl rfl
    | some e =>
      have hmem := (rotateAfter_perm _ _).mem_iff.mp (List.mem_of_find?_eq_some hfind)
      have hready : entryReady now e = true := List.find?_some hfind
      exact .inr ⟨e, hmem, rfl, hready, fun b hb => nomatch hb⟩
  · rw [pick_sorted hpolicy]
    rcases pickLeast_cases now (policyKey policy) (policyBound policy) entries with
      ⟨hzero, -⟩ | ⟨e, he, hpick, helig, -⟩
    · exact .inl hzero
    · exact .inr ⟨e, he, hpick, helig⟩

/-- **What is picked** has an id and is a task that the policy can find. -/
theorem mem_picks {id : ℕ} (hid : id ∈ (picks policy now n cursor entries).1) :
    id ≠ 0 ∧ ∃ e ∈ entries, e.1 = id ∧ Eligible now (policyKey policy) (policyBound policy) e := by
  induction n generalizing cursor entries with
  | zero => exact absurd hid List.not_mem_nil
  | succ n ih =>
    rw [picks] at hid
    dsimp only at hid
    split_ifs at hid with hzero
    · exact absurd hid List.not_mem_nil
    · rcases List.mem_cons.mp hid with rfl | hid
      · rcases pick_cases with hnone | ⟨e, he, hpick, helig⟩
        · exact absurd hnone hzero
        · exact ⟨hzero, e, he, hpick.symm, helig⟩
      · obtain ⟨hne, e, he, hid, helig⟩ := ih hid
        have hmem := List.mem_filter.mpr ⟨he, helig.1⟩
        rw [filter_claimEntry] at hmem
        exact ⟨hne, e, List.mem_of_mem_filter (List.mem_of_mem_filter hmem), hid, helig⟩

/-- What is ready once the task is claimed. -/
theorem perm_filter_claimEntry (hperm : (e :: L).Perm (entries.filter (entryReady now)))
    (hnodup : (entries.map Prod.fst).Nodup) :
    L.Perm ((claimEntry e.1 entries).filter (entryReady now)) := by
  have hids : ((e :: L).map Prod.fst).Nodup :=
    (hperm.map _).nodup_iff.mpr (hnodup.sublist (List.filter_sublist.map _))
  rw [List.map_cons, List.nodup_cons] at hids
  have hothers : L.filter (fun e' => decide (e'.1 ≠ e.1)) = L := by
    refine List.filter_eq_self.mpr fun e' he' => decide_eq_true fun hsame => ?_
    exact hids.1 (hsame ▸ List.mem_map_of_mem he')
  have hrest := hperm.filter fun e' => decide (e'.1 ≠ e.1)
  rwa [List.filter_cons_of_neg (by simp), hothers, ← filter_claimEntry] at hrest

/-- **Picking the least again and again sorts**: by induction on what is ready, in the order of the
keys. -/
theorem picks_sorted (hpolicy : policy ≠ .roundRobin) (hnodup : (entries.map Prod.fst).Nodup)
    (hperm : L.Perm (entries.filter (entryReady now)))
    (hsorted : L.Pairwise fun a b => policyKey policy a.2 < policyKey policy b.2)
    (hid : ∀ e ∈ L, e.1 ≠ 0) (hbelow : ∀ e ∈ L, ∀ b ∈ policyBound policy, policyKey policy e.2 < b)
    (hn : L.length ≤ n) : picks policy now n cursor entries = (L.map Prod.fst, cursor) := by
  induction n generalizing L entries with
  | zero =>
    obtain rfl := List.length_eq_zero_iff.mp (Nat.le_zero.mp hn)
    rfl
  | succ n ih =>
    rw [picks, pick_sorted hpolicy]
    dsimp only
    have hready {e : TaskEntry} : e ∈ L ↔ e ∈ entries ∧ entryReady now e = true := by
      rw [hperm.mem_iff, List.mem_filter]
    rcases pickLeast_cases now (policyKey policy) (policyBound policy) entries with
      ⟨hzero, hnone⟩ | ⟨e, he, hpick, helig, hleast⟩
    · cases L with
      | nil =>
        rw [if_pos hzero]
        rfl
      | cons e L =>
        obtain ⟨he, hr⟩ := hready.mp (List.mem_cons_self ..)
        exact absurd ⟨hr, hbelow e (List.mem_cons_self ..)⟩ (hnone e he)
    · cases L with
      | nil => exact absurd (hready.mpr ⟨he, helig.1⟩) List.not_mem_nil
      | cons least L =>
        obtain ⟨hhead, htail⟩ := List.pairwise_cons.mp hsorted
        obtain ⟨hmem, hr⟩ := hready.mp (List.mem_cons_self ..)
        -- no other task has a key as small
        obtain rfl : e = least := by
          rcases List.mem_cons.mp (hready.mpr ⟨he, helig.1⟩) with heq | hlater
          · exact heq
          · have hle := hleast least hmem ⟨hr, hbelow least (List.mem_cons_self ..)⟩
            exact absurd (hhead e hlater) (not_lt.mpr hle)
        rw [hpick, if_neg (hid e (List.mem_cons_self ..)),
          ih (by rw [claimEntry_keys]; exact hnodup) (perm_filter_claimEntry hperm hnodup) htail
            (fun e' he' => hid e' (List.mem_cons_of_mem _ he'))
            (fun e' he' => hbelow e' (List.mem_cons_of_mem _ he')) (by simpa using hn)]
        rfl

/-- What the round robin goes on with after a pick is what it would have gone on with anyway. -/
theorem filter_rotateAfter_claimEntry (hnodup : (entries.map Prod.fst).Nodup)
    (hrest : (rotateAfter (fun e => e.1 == cursor) entries).filter (entryReady now) = e :: L) :
    (rotateAfter (fun e' => e'.1 == e.1) (claimEntry e.1 entries)).filter (entryReady now) = L := by
  obtain ⟨before, after, hsplit, hbefore, hready, hafter⟩ := List.filter_eq_cons_iff.mp hrest
  have hids : ((before ++ e :: after).map Prod.fst).Nodup :=
    hsplit ▸ ((rotateAfter_perm _ _).map _).nodup_iff.mpr hnodup
  rw [List.map_append, List.map_cons, List.nodup_middle, List.nodup_cons, ← List.map_append] at hids
  have hother {x : TaskEntry} (hx : x ∈ before ++ after) : x.1 ≠ e.1 := fun hsame =>
    hids.1 (hsame ▸ List.mem_map_of_mem hx)
  have hrotated : rotateAfter (fun e' => e'.1 == e.1) entries = after ++ (before ++ [e]) :=
    rotateAfter_of_rotated hsplit (beq_self_eq_true _) fun x hx => beq_false_of_ne (hother hx)
  have hclaimed : rotateAfter (fun e' => e'.1 == e.1) (claimEntry e.1 entries) =
      claimEntry e.1 (after ++ (before ++ [e])) := by
    rw [claimEntry, rotateAfter_map, hrotated, claimEntry]
    intro x _
    split_ifs <;> rfl
  have hkept : after.filter (fun x => entryReady now x && decide (x.1 ≠ e.1)) = L := by
    rw [← hafter]
    refine List.filter_congr fun x hx => ?_
    rw [decide_eq_true (hother (List.mem_append_right _ hx)), Bool.and_true]
  have hgone : before.filter (entryReady now) = [] := List.filter_eq_nil_iff.mpr hbefore
  have hlast : ((before ++ [e]).filter (entryReady now)).filter (fun x => decide (x.1 ≠ e.1)) = [] := by
    rw [List.filter_append, hgone]
    simp [hready]
  rw [hclaimed, filter_claimEntry, List.filter_append, List.filter_append, hlast, List.append_nil,
    List.filter_filter, ← hkept]
  exact List.filter_congr fun x _ => Bool.and_comm ..

/-- **The round robin, pick by pick**: the ready tasks in the order of the table, from the one after
the cursor, around to it. -/
theorem picks_roundRobin (hnodup : (entries.map Prod.fst).Nodup)
    (hL : (rotateAfter (fun e => e.1 == cursor) entries).filter (entryReady now) = L)
    (hid : ∀ e ∈ L, e.1 ≠ 0) (hn : L.length ≤ n) : picks .roundRobin now n cursor entries =
      (L.map Prod.fst, (L.map Prod.fst).getLast?.getD cursor) := by
  induction n generalizing L entries cursor with
  | zero =>
    obtain rfl := List.length_eq_zero_iff.mp (Nat.le_zero.mp hn)
    rfl
  | succ n ih =>
    have hfind := List.head?_filter (p := entryReady now)
      (l := rotateAfter (fun e => e.1 == cursor) entries)
    rw [hL] at hfind
    rw [picks, pick, scheduleRoundRobin, ← hfind]
    cases L with
    | nil => rfl
    | cons e L =>
      dsimp only [List.head?_cons]
      rw [if_neg (hid e (List.mem_cons_self ..)),
        ih (by rw [claimEntry_keys]; exact hnodup) (filter_rotateAfter_claimEntry hnodup hL)
          (fun e' he' => hid e' (List.mem_cons_of_mem _ he')) (by simpa using hn)]
      have hlast : (e.1 :: L.map Prod.fst).getLast? = some ((L.map Prod.fst).getLast?.getD e.1) :=
        List.getLast?_cons
      rw [List.map_cons, hlast, Option.getD_some]

end Picks

/-! ## The batch -/

section Batch

variable {policy : SchedulingPolicy} {now : TimePoint} {n cursor : ℕ} {t : TaskTable}

/-- The ready tasks of the pass. -/
def readyEntries (now : TimePoint) (t : TaskTable) : List TaskEntry :=
  (t.reactivate now).entries.filter (entryReady now)

theorem mem_readyEntries {e : TaskEntry} : e ∈ readyEntries now t ↔
    e ∈ (t.reactivate now).entries ∧ entryReady now e = true := List.mem_filter

/-- The candidates carry the ids of the table. -/
theorem map_taskId_readyCandidate {L : List TaskEntry} (hL : ∀ e ∈ L, e ∈ readyEntries now t) :
    (L.map fun e => readyCandidate e.2).map (·.taskId) = L.map Prod.fst := by
  rw [List.map_map]
  exact List.map_congr_left fun e he => (t.reactivate now).ids e (mem_readyEntries.mp (hL e he)).1

/-- The ready tasks in the order of their keys. -/
def sortedEntries (policy : SchedulingPolicy) (now : TimePoint) (t : TaskTable) : List TaskEntry :=
  (readyEntries now t).mergeSort fun a b => policyKey policy a.2 ≤ policyKey policy b.2

theorem sortedEntries_perm : (sortedEntries policy now t).Perm (readyEntries now t) :=
  List.mergeSort_perm ..

theorem sortBy_readyCandidate {key : ReadyCandidate → ℤ}
    (hkey : ∀ task, key (readyCandidate task) = policyKey policy task) :
    sortBy key ((readyEntries now t).map fun e => readyCandidate e.2) =
      (sortedEntries policy now t).map fun e => readyCandidate e.2 := by
  rw [sortBy, sortedEntries]
  refine (List.map_mergeSort fun a _ b _ => ?_).symm
  rw [hkey, hkey]

/-- **The batch of a policy with a key** is the ready tasks, sorted. -/
theorem select_sorted (hcustom : policy ≠ .custom) (hpolicy : policy ≠ .roundRobin) :
    selectReadyTasksForCycle policy now cursor t.entries =
      ((sortedEntries policy now t).map Prod.fst, cursor) := by
  have horder : orderCandidates policy cursor ((readyEntries now t).map fun e => readyCandidate e.2) =
      (sortedEntries policy now t).map fun e => readyCandidate e.2 := by
    cases policy with
    | roundRobin => exact absurd rfl hpolicy
    | custom => exact absurd rfl hcustom
    | _ => exact sortBy_readyCandidate fun _ => rfl
  have hids : (orderCandidates policy cursor
      ((readyEntries now t).map fun e => readyCandidate e.2)).map (·.taskId) =
        (sortedEntries policy now t).map Prod.fst := by
    have hmem : ∀ e ∈ sortedEntries policy now t, e ∈ readyEntries now t := fun _ he =>
      sortedEntries_perm.mem_iff.mp he
    rw [horder, map_taskId_readyCandidate hmem]
  rw [selectReadyTasksForCycle, if_neg hpolicy]
  exact congrArg (·, cursor) hids

/-- **The batch of the round robin** is the ready tasks, rotated. -/
theorem select_roundRobin : selectReadyTasksForCycle .roundRobin now cursor t.entries =
    ((rotateAfter (fun e => e.1 == cursor) (readyEntries now t)).map Prod.fst,
      ((rotateAfter (fun e => e.1 == cursor) (readyEntries now t)).map Prod.fst).getLast?.getD
        cursor) := by
  have horder : orderCandidates .roundRobin cursor
      ((readyEntries now t).map fun e => readyCandidate e.2) =
        (rotateAfter (fun e => e.1 == cursor) (readyEntries now t)).map
          fun e => readyCandidate e.2 := by
    refine rotateAfter_map fun e he => ?_
    exact congrArg (· == cursor) ((t.reactivate now).ids e (mem_readyEntries.mp he).1)
  have hids : (orderCandidates .roundRobin cursor
      ((readyEntries now t).map fun e => readyCandidate e.2)).map (·.taskId) =
        (rotateAfter (fun e => e.1 == cursor) (readyEntries now t)).map Prod.fst := by
    have hmem : ∀ e ∈ rotateAfter (fun e => e.1 == cursor) (readyEntries now t),
        e ∈ readyEntries now t := fun _ he => (rotateAfter_perm _ _).mem_iff.mp he
    rw [horder, map_taskId_readyCandidate hmem]
  rw [selectReadyTasksForCycle, if_pos rfl]
  exact congrArg (fun ids : List ℕ => (ids, ids.getLast?.getD cursor)) hids

/-- Every ready task is in the batch. -/
theorem mem_select {e : TaskEntry} (hpolicy : policy ≠ .custom) (he : e ∈ readyEntries now t) :
    e.1 ∈ (selectReadyTasksForCycle policy now cursor t.entries).1 := by
  by_cases hround : policy = .roundRobin
  · rw [hround, select_roundRobin]
    exact List.mem_map_of_mem ((rotateAfter_perm _ _).mem_iff.mpr he)
  · rw [select_sorted hpolicy hround]
    exact List.mem_map_of_mem (sortedEntries_perm.mem_iff.mpr he)

theorem sortedEntries_pairwise : (sortedEntries policy now t).Pairwise
    fun a b => policyKey policy a.2 ≤ policyKey policy b.2 := by
  have hsorted : (sortedEntries policy now t).Pairwise
      fun a b => decide (policyKey policy a.2 ≤ policyKey policy b.2) = true := by
    refine List.pairwise_mergeSort (fun a b c hab hbc => ?_) (fun a b => ?_) _
    · exact decide_eq_true ((of_decide_eq_true hab).trans (of_decide_eq_true hbc))
    · rw [Bool.or_eq_true, decide_eq_true_eq, decide_eq_true_eq]
      exact le_total _ _
  exact hsorted.imp of_decide_eq_true

/-- Where the keys differ, the sort is strict. -/
theorem sortedEntries_strict (hkeys : (readyEntries now t).Pairwise fun a b =>
    policyKey policy a.2 ≠ policyKey policy b.2) : (sortedEntries policy now t).Pairwise
      fun a b => policyKey policy a.2 < policyKey policy b.2 := by
  have hperm : (sortedEntries policy now t).Perm (readyEntries now t) := sortedEntries_perm
  have hne := hperm.symm.pairwise hkeys fun h => h.symm
  exact (sortedEntries_pairwise.and hne).imp fun ⟨hle, hne⟩ => lt_of_le_of_ne hle hne

/-- No two ready tasks have the same key. -/
def DistinctKeys (policy : SchedulingPolicy) (now : TimePoint) (t : TaskTable) : Prop :=
  (readyEntries now t).Pairwise fun a b => policyKey policy a.2 ≠ policyKey policy b.2

/-- An entry is known by its id. -/
theorem entry_eq {e e' : TaskEntry} (he : e ∈ t.entries) (he' : e' ∈ t.entries) (hid : e.1 = e'.1) :
    e = e' := List.inj_on_of_nodup_map t.nodup he he' hid

/-- Under the condition, rotating the candidates is rotating the table. -/
theorem Agrees.rotate (hA : Agrees .roundRobin now cursor t.entries) :
    (rotateAfter (fun e => e.1 == cursor) t.entries).filter (entryReady now) =
      rotateAfter (fun e => e.1 == cursor) (t.entries.filter (entryReady now)) := by
  rcases rotateAfter_cases (fun e : TaskEntry => e.1 == cursor) t.entries with
    ⟨hnone, heq⟩ | ⟨before, c, after, hsplit, hbefore, hc, -⟩
  · rw [heq, rotateAfter_none fun e he => hnone e (List.mem_of_mem_filter he)]
  · have hcursor : c.1 = cursor := eq_of_beq hc
    have hnodup := t.nodup
    rw [hsplit, List.map_append, List.map_cons, List.nodup_middle, List.nodup_cons,
      ← List.map_append] at hnodup
    have hafter : ∀ e ∈ after, (e.1 == cursor) = false := fun e he =>
      beq_false_of_ne fun hsame => hnodup.1 <| hcursor ▸ hsame ▸
        List.mem_map_of_mem (List.mem_append_right _ he)
    rw [hsplit]
    exact filter_rotateAfter hbefore hc hafter (hA.onCursor rfl before c after hsplit hcursor)

/-- Where the two round robins agree, the cursor is on a ready task or beside all of them. -/
theorem onCursor_of_rotate {before after : List TaskEntry} {c : TaskEntry}
    (hsplit : t.entries = before ++ c :: after) (hc : c.1 = cursor)
    (heq : (rotateAfter (fun e => e.1 == cursor) (t.entries.filter (entryReady now))).map Prod.fst =
      ((rotateAfter (fun e => e.1 == cursor) t.entries).filter (entryReady now)).map Prod.fst) :
    entryReady now c = true ∨ before.filter (entryReady now) = [] ∨
      after.filter (entryReady now) = [] := by
  by_contra hnot
  rw [not_or, not_or, Bool.not_eq_true] at hnot
  obtain ⟨hready, hbefore, hafter⟩ := hnot
  obtain ⟨b, bs, hbs⟩ := List.exists_cons_of_ne_nil hbefore
  obtain ⟨a, as, has⟩ := List.exists_cons_of_ne_nil hafter
  have hnodup := t.nodup
  rw [hsplit, List.map_append, List.map_cons, List.nodup_middle, List.nodup_cons,
    ← List.map_append] at hnodup
  have hother : ∀ e ∈ before ++ after, (e.1 == cursor) = false := fun e he =>
    beq_false_of_ne fun hsame => hnodup.1 (hc ▸ hsame ▸ List.mem_map_of_mem he)
  have hready' : t.entries.filter (entryReady now) = b :: bs ++ a :: as := by
    rw [hsplit, List.filter_append, List.filter_cons_of_neg (by simp [hready]), hbs, has]
  have hrest : ∀ e ∈ b :: bs ++ a :: as, (e.1 == cursor) = false := by
    intro e he
    rw [← hbs, ← has, ← List.filter_append] at he
    exact hother e (List.mem_of_mem_filter he)
  have hrotated : rotateAfter (fun e => e.1 == cursor) t.entries = after ++ (before ++ [c]) := by
    rw [hsplit]
    exact rotateAfter_append (fun e he => hother e (List.mem_append_left _ he)) (beq_iff_eq.mpr hc)
  rw [hready', rotateAfter_none hrest, hrotated, List.filter_append, has] at heq
  have hhead : b.1 = a.1 := by
    have hheads := congrArg List.head? heq
    simpa using hheads
  -- the first of one side would be the first of the other
  have hb : b ∈ before := List.mem_of_mem_filter (hbs ▸ List.mem_cons_self ..)
  have ha : a ∈ after := List.mem_of_mem_filter (has ▸ List.mem_cons_self ..)
  rw [List.map_append, List.nodup_append] at hnodup
  exact hnodup.2.2.2 b.1 (List.mem_map_of_mem hb) a.1 (List.mem_map_of_mem ha) hhead

/-- **The batch is what the picks make of it exactly under the condition**, for every table, every
cursor and any number of picks that suffices. -/
theorem select_eq_picks_iff (t : TaskTable) (hpolicy : policy ≠ .custom) (now : TimePoint)
    (cursor : ℕ) (hkeys : DistinctKeys policy now t) (hn : t.entries.length ≤ n) :
    selectReadyTasksForCycle policy now cursor t.entries =
        picks policy now n cursor (t.reactivate now).entries ↔
      Agrees policy now cursor (t.reactivate now).entries := by
  have hlength : (readyEntries now t).length ≤ n :=
    (List.length_filter_le ..).trans ((List.length_map _).trans_le hn)
  constructor
  · intro heq
    have hfound {e : TaskEntry} (he : e ∈ (t.reactivate now).entries) (hr : entryReady now e = true) :
        e.1 ≠ 0 ∧ Eligible now (policyKey policy) (policyBound policy) e := by
      have hmem : e.1 ∈ (selectReadyTasksForCycle policy now cursor t.entries).1 :=
        mem_select hpolicy (mem_readyEntries.mpr ⟨he, hr⟩)
      rw [heq] at hmem
      obtain ⟨hne, e', he', hid, helig⟩ := mem_picks hmem
      exact ⟨hne, entry_eq he' he hid ▸ helig⟩
    refine ⟨fun e he hr => (hfound he hr).1, fun e he hr => (hfound he hr).2.2, ?_⟩
    rintro rfl before c after hsplit hc
    refine onCursor_of_rotate hsplit hc ?_
    have hid : ∀ e ∈ (rotateAfter (fun e => e.1 == cursor) (t.reactivate now).entries).filter
        (entryReady now), e.1 ≠ 0 := by
      intro e he
      obtain ⟨he, hr⟩ := List.mem_filter.mp he
      exact (hfound ((rotateAfter_perm _ _).mem_iff.mp he) hr).1
    have hlength' := ((rotateAfter_perm (fun e => e.1 == cursor) (t.reactivate now).entries).filter
      (entryReady now)).length_eq.trans_le hlength
    rw [select_roundRobin, picks_roundRobin (t.reactivate now).nodup rfl hid hlength'] at heq
    exact congrArg Prod.fst heq
  · intro hA
    by_cases hround : policy = .roundRobin
    · subst hround
      rw [select_roundRobin, picks_roundRobin (t.reactivate now).nodup hA.rotate]
      · rfl
      · intro e he
        obtain ⟨he, hr⟩ := mem_readyEntries.mp ((rotateAfter_perm _ _).mem_iff.mp he)
        exact hA.nonzero e he hr
      · exact (rotateAfter_perm _ _).length_eq.trans_le hlength
    · have hmem {e : TaskEntry} (he : e ∈ sortedEntries policy now t) :=
        mem_readyEntries.mp (sortedEntries_perm.mem_iff.mp he)
      rw [select_sorted hpolicy hround, picks_sorted hround (t.reactivate now).nodup sortedEntries_perm
        (sortedEntries_strict hkeys) (fun e he => hA.nonzero e (hmem he).1 (hmem he).2)
        (fun e he => hA.below e (hmem he).1 (hmem he).2)
        (sortedEntries_perm.length_eq.trans_le hlength)]

/-! ### The loop's choice -/

/-- The table, with the tasks it has in the scheduler. -/
structure Tabulates (t : TaskTable) (s : RealTimeScheduler) : Prop where
  keys : (t.entries.map Prod.fst).Perm s.tasks.keys
  task : ∀ e ∈ t.entries, s.task? e.1 = some e.2

variable {s : RealTimeScheduler}

theorem Tabulates.reactivate (ht : Tabulates t s) (now : TimePoint) :
    Tabulates (t.reactivate now) (s.reactivateAll now) where
  keys := by
    have hkeys : (t.reactivate now).entries.map Prod.fst = t.entries.map Prod.fst := List.map_map
    exact hkeys ▸ ht.keys
  task := by
    intro e' he'
    obtain ⟨e, he, rfl⟩ := List.mem_map.mp he'
    have htask := ht.task e he
    rw [task?, Option.bind_eq_some_iff] at htask
    obtain ⟨b, hb, htask⟩ := htask
    have hmem : b ∈ s.tasks.values := AList.mem_values.mpr ⟨_, hb⟩
    have hafter := lookup_reactivateAll s now b
    rw [if_pos hmem, htask] at hafter
    have htable : (s.reactivateAll now).tasks.lookup e.1 = some b := hb
    rw [task?, htable, Option.bind_some, hafter]
    rfl

/-- The ready tasks of the table are those of the scheduler. -/
theorem Tabulates.ready (ht : Tabulates t s) (now : TimePoint) :
    ((readyEntries now t).map Prod.fst).Perm ((s.reactivateAll now).readyIds now) := by
  have hfilter : (readyEntries now t).map Prod.fst = ((t.reactivate now).entries.map Prod.fst).filter
      fun id => ((s.reactivateAll now).task? id).any (isReady now) := by
    rw [List.filter_map, readyEntries]
    refine congrArg _ (List.filter_congr fun e he => ?_)
    rw [Function.comp_apply, (ht.reactivate now).task e he, Option.any_some, entryReady]
  rw [hfilter, readyIds]
  exact (ht.reactivate now).keys.filter _

end Batch

/-- A task that is due at the time. -/
def dueAt (id : ℕ) (next : TimePoint) : TaskEntry :=
  (id, { unit := id, constraints := {}, taskId := id, name := "", nextExecution := next
         lastExecution := 0 })

/-- Three tasks, in this order. -/
def threeTasks (first second third : TimePoint) : TaskTable where
  entries := [dueAt 1 first, dueAt 2 second, dueAt 3 third]
  nodup := by simp [dueAt]
  ids := by
    intro e he
    simp only [List.mem_cons, List.not_mem_nil, or_false] at he
    rcases he with rfl | rfl | rfl <;> rfl

/-- A scheduler that has the three tasks. -/
def threeAdded : RealTimeScheduler :=
  let added := [1, 2, 3].foldl (fun s unit => (RealTimeScheduler.addTask s unit "" {} 0).1)
    (.new .roundRobin)
  { added with lastSelectedTask := 2 }

/-- All three are due, and the cursor is on the second: the result applies, and its two sides hold. -/
theorem select_eq_picks_due : Agrees .roundRobin 5 2 ((threeTasks 5 5 5).reactivate 5).entries ∧
    selectReadyTasksForCycle .roundRobin 5 2 (threeTasks 5 5 5).entries =
      picks .roundRobin 5 3 2 ((threeTasks 5 5 5).reactivate 5).entries := by
  have hkeys : DistinctKeys .roundRobin 5 (threeTasks 5 5 5) := by
    rw [DistinctKeys]
    decide +kernel
  have hiff := select_eq_picks_iff (n := 3) (threeTasks 5 5 5) (by decide) 5 2 hkeys (by decide)
  have heq : selectReadyTasksForCycle .roundRobin 5 2 (threeTasks 5 5 5).entries =
    picks .roundRobin 5 3 2 ((threeTasks 5 5 5).reactivate 5).entries := by decide +kernel
  exact ⟨hiff.mp heq, heq⟩

/-- **The second is not due, and the cursor is on it**: the pick goes on with the third, the batch
starts over with the first. -/
theorem select_starts_over : ¬ ∀ (t : TaskTable) (policy : SchedulingPolicy) (now : TimePoint)
    (cursor n : ℕ), policy ≠ .custom → DistinctKeys policy now t → t.entries.length ≤ n →
      selectReadyTasksForCycle policy now cursor t.entries =
        picks policy now n cursor (t.reactivate now).entries := by
  intro hall
  have hkeys : DistinctKeys .roundRobin 5 (threeTasks 5 9 5) := by
    rw [DistinctKeys]
    decide +kernel
  have heq := hall (threeTasks 5 9 5) .roundRobin 5 2 3 (by decide) hkeys (by decide)
  exact absurd heq (by decide +kernel)

end Selection

end AxonVex
