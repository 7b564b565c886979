import AxonVex.Machinery.Machine
import AxonVex.Machinery.Rounds
import Mathlib.Order.Nat
import Mathlib.Tactic.SplitIfs

/-!
# Core/Caller — callbacks in a vector, which they edit while they are called

    for (auto callback : callbacks_)      begin ← data;  end ← data + size;  … *begin …  ++begin

The loop of `callCallbacks` takes its bounds from the vector when it begins, and a callback may
register and unregister callbacks before it returns.  A registration may move the vector to another
buffer, and then the loop reads the old one; an unregistration shifts the callbacks behind it, and
then the loop passes one by, or reads behind the last.  Otherwise every callback has its turn
(`always_served_iff`).

A registration is known by its number.
-/

namespace AxonVex

open Machinery

/-- A callback in the vector: which registration it is, and the pointer. -/
structure Registration where
  id : ℕ
  callback : ℕ
  deriving DecidableEq, Repr

structure Caller where
  callbacks_ : List Registration := []
  /-- of the vector, -/
  capacity : ℕ := 0
  /-- and how often it has moved -/
  buffer : ℕ := 0
  /-- how many registrations there were -/
  registrations : ℕ := 0
  deriving DecidableEq, Repr

namespace Caller

/-- What a callback may do to its caller; the pointer `none` is null. -/
inductive Edit
  | registerCallback (callback : Option ℕ)
  | unregisterCallback (callback : Option ℕ)
  | unregisterAllCallback (callback : Option ℕ)
  | clear
  deriving DecidableEq, Repr

/-- `push_back`: a full vector moves. -/
def pushBack (c : Caller) (callback : ℕ) : Caller where
  callbacks_ := c.callbacks_ ++ [⟨c.registrations, callback⟩]
  capacity := if c.callbacks_.length < c.capacity then c.capacity else max 1 (2 * c.capacity)
  buffer := if c.callbacks_.length < c.capacity then c.buffer else c.buffer + 1
  registrations := c.registrations + 1

def registerCallback (c : Caller) (callback : Option ℕ) : Caller :=
  match callback with
  | some callback => c.pushBack callback
  | none => c

def unregisterCallback (c : Caller) (callback : Option ℕ) : Caller × Bool :=
  ({ c with callbacks_ := c.callbacks_.eraseP fun r => some r.callback == callback },
    c.callbacks_.any fun r => some r.callback == callback)

/-- What is left, and how many went. -/
def unregisterAllCallback (c : Caller) (callback : Option ℕ) : Caller × ℕ :=
  ({ c with callbacks_ := c.callbacks_.filter fun r => some r.callback != callback },
    c.callbacks_.countP fun r => some r.callback == callback)

def clear (c : Caller) : Caller := { c with callbacks_ := [] }

def edit (c : Caller) : Edit → Caller
  | .registerCallback callback => c.registerCallback callback
  | .unregisterCallback callback => (c.unregisterCallback callback).1
  | .unregisterAllCallback callback => (c.unregisterAllCallback callback).1
  | .clear => c.clear

/-- A caller that holds these callbacks, with room for some more. -/
def holding (callbacks : List ℕ) (spare : ℕ) : Caller where
  callbacks_ := callbacks.mapIdx Registration.mk
  capacity := callbacks.length + spare
  registrations := callbacks.length

/-- Where the loop stands. -/
inductive Loop
  /-- the callback at this position is running -/
  | running (i : ℕ)
  | over
  /-- an exception has left `callCallbacks` -/
  | left
  /-- it has read a position that does not exist -/
  | dangling
  deriving DecidableEq, Repr

/-- A call of `callCallbacks` or, `safe`, of `callCallbacksSafe`. -/
structure Dispatch where
  caller : Caller
  safe : Bool
  /-- the vector as the loop began -/
  buffer : ℕ
  size : ℕ
  loop : Loop := .over
  /-- the registrations that have been called -/
  called : List ℕ := []
  exceptions_count : ℕ := 0

namespace Dispatch

/-- The loop goes on to a position. -/
def reach (d : Dispatch) (i : ℕ) : Dispatch :=
  if i = d.size then { d with loop := .over }
  else if d.caller.buffer ≠ d.buffer then { d with loop := .dangling }
  else match d.caller.callbacks_[i]? with
    | none => { d with loop := .dangling }
    | some r => { d with loop := .running i, called := d.called ++ [r.id] }

/-- The loop has taken its bounds. -/
def entered (c : Caller) (safe : Bool) : Dispatch where
  caller := c
  safe := safe
  buffer := c.buffer
  size := c.callbacks_.length

/-- `callCallbacks(data)`, or `callCallbacksSafe(data)`. -/
def begin (c : Caller) (safe : Bool) : Dispatch := (entered c safe).reach 0

/-- What the running callback does. -/
inductive Label
  | edit (e : Edit)
  | returns (threw : Bool)
  deriving DecidableEq, Repr

def step (d : Dispatch) : Label → Option Dispatch
  | .edit e => match d.loop with
    | .running _ => some { d with caller := d.caller.edit e }
    | _ => none
  | .returns threw => match d.loop with
    | .running i =>
      if threw ∧ d.safe = false then some { d with loop := .left }
      else
        some (reach { d with
          exceptions_count := if threw then d.exceptions_count + 1 else d.exceptions_count } (i + 1))
    | _ => none

/-- The calls of `callCallbacks` and `callCallbacksSafe`. -/
def dispatches : Machine Dispatch Label where
  init d := ∃ callbacks spare safe, d = begin (holding callbacks spare) safe
  step := step

/-- The registrations in these places. -/
def ids (callbacks : List Registration) : List ℕ := callbacks.map (·.id)

/-- **Every callback is served**: whoever was registered when the call began and still is has been
called once or is still before the loop; the loop has read no position that does not exist, and it
takes at most one turn for a registration. -/
def Served (d : Dispatch) : Prop :=
  d.called.length ≤ d.caller.registrations ∧
  match d.loop with
  | .running i => Round.Kept (List.range d.size)
      ⟨ids d.caller.callbacks_, ids (d.caller.callbacks_.drop (i + 1)), d.called⟩
  | .over | .left => Round.Kept (List.range d.size) ⟨ids d.caller.callbacks_, [], d.called⟩
  | .dangling => False

/-- **The edit leaves the loop its place**: it takes nobody away from the positions up to the
running callback's, or nobody of the beginning is left behind it. -/
def LeavesPlace (d : Dispatch) (i : ℕ) : Edit → Prop
  | .registerCallback _ | .clear => True
  | .unregisterCallback callback =>
    (∀ r ∈ d.caller.callbacks_.take (i + 1), some r.callback ≠ callback) ∨
      ∀ r ∈ d.caller.callbacks_.drop (i + 1), d.size ≤ r.id
  | .unregisterAllCallback callback =>
    (∀ r ∈ d.caller.callbacks_.take (i + 1), some r.callback ≠ callback) ∨
      ∀ r ∈ d.caller.callbacks_.drop (i + 1), some r.callback ≠ callback → d.size ≤ r.id

/-- **The condition**: an edit leaves the loop its place; an exception leaves the loop only if nobody
of the beginning is behind it; and when a callback returns otherwise the loop is at its end, or the
vector has not moved and the next position exists. -/
def Holds (d : Dispatch) : Label → Prop
  | .edit e => ∀ i, d.loop = .running i → d.LeavesPlace i e
  | .returns threw => ∀ i, d.loop = .running i →
      if threw = true ∧ d.safe = false then ∀ r ∈ d.caller.callbacks_.drop (i + 1), d.size ≤ r.id
      else i + 1 = d.size ∨ d.caller.buffer = d.buffer ∧ i + 1 < d.caller.callbacks_.length

/-! ## The loop -/

/-- **The invariant of a call.** -/
structure Sound (d : Dispatch) : Prop where
  ascending : (ids d.caller.callbacks_).Pairwise (· < ·)
  below : ∀ id ∈ ids d.caller.callbacks_, id < d.caller.registrations
  size_le : d.size ≤ d.caller.registrations
  called_lt : ∀ id ∈ d.called, id < d.caller.registrations
  /-- whoever stands behind the running callback has not been called -/
  waiting : ∀ i, d.loop = .running i → i < d.size ∧
    ∀ id ∈ ids (d.caller.callbacks_.drop (i + 1)), id ∉ d.called

variable {d : Dispatch} {i : ℕ}

theorem ids_drop (callbacks : List Registration) (i : ℕ) :
    ids (callbacks.drop i) = (ids callbacks).drop i := List.map_drop ..

/-- A state in which the loop runs no more. -/
theorem Sound.halt (h : d.Sound) {loop : Loop} (hloop : ∀ i, loop ≠ .running i) :
    Sound { d with loop := loop } :=
  ⟨h.ascending, h.below, h.size_le, h.called_lt, fun i hi => absurd hi (hloop i)⟩

/-- Nobody is called more often than registered. -/
theorem Sound.called_le (h : d.Sound) (honce : d.called.Nodup) :
    d.called.length ≤ d.caller.registrations :=
  length_le_of_nodup honce h.called_lt

/-- **The loop goes on** to a position before which everybody has been served. -/
theorem Sound.reach (h : d.Sound) (hi : i ≤ d.size)
    (hwaiting : ∀ id ∈ ids (d.caller.callbacks_.drop i), id ∉ d.called)
    (hkept : Round.Kept (List.range d.size)
      ⟨ids d.caller.callbacks_, ids (d.caller.callbacks_.drop i), d.called⟩) :
    (d.reach i).Sound ∧ ((d.reach i).Served ↔
      i = d.size ∨ d.caller.buffer = d.buffer ∧ i < d.caller.callbacks_.length) := by
  rw [Dispatch.reach]
  split_ifs with hend hbuffer
  · refine ⟨h.halt (by simp), iff_of_true ⟨h.called_le hkept.once, ?_⟩ (.inl hend)⟩
    refine hkept.edit rfl (fun _ _ hlisted => hlisted) fun id hid _ hahead => ?_
    -- whoever was there when the loop began stands before its end
    rw [ids_drop, hend] at hahead
    have hle := le_of_mem_drop h.ascending hahead
    have hlt := List.mem_range.mp hid
    omega
  · exact ⟨h.halt (by simp), iff_of_false And.right fun hholds =>
      hholds.elim hend fun hkeep => hbuffer hkeep.1⟩
  · have hbuffer : d.caller.buffer = d.buffer := not_not.mp hbuffer
    cases hread : d.caller.callbacks_[i]? with
    | none =>
      have hlength := List.getElem?_eq_none_iff.mp hread
      exact ⟨h.halt (by simp), iff_of_false And.right fun hholds =>
        hholds.elim hend fun hkeep => by omega⟩
    | some r =>
      obtain ⟨hlength, hr⟩ := List.getElem?_eq_some_iff.mp hread
      have hdrop : d.caller.callbacks_.drop i = r :: d.caller.callbacks_.drop (i + 1) := by
        rw [List.drop_eq_getElem_cons hlength, hr]
      have hahead : ids (d.caller.callbacks_.drop i) =
          r.id :: ids (d.caller.callbacks_.drop (i + 1)) := by
        rw [hdrop]
        rfl
      rw [hahead] at hwaiting
      have hfresh : r.id ∉ d.called := hwaiting r.id List.mem_cons_self
      have hnext := hkept.take hahead hfresh
      have hrest : ∀ id ∈ ids (d.caller.callbacks_.drop (i + 1)), id ∉ d.called ++ [r.id] := by
        intro id hid
        rw [List.mem_append, List.mem_singleton, not_or]
        refine ⟨hwaiting id (List.mem_cons_of_mem _ hid), ?_⟩
        rintro rfl
        have hnodup : (r.id :: ids (d.caller.callbacks_.drop (i + 1))).Nodup := by
          rw [← hahead, ids_drop]
          exact ((h.ascending.imp fun hlt => Nat.ne_of_lt hlt).drop)
        exact (List.nodup_cons.mp hnodup).1 hid
      have hsound : Sound { d with loop := .running i, called := d.called ++ [r.id] } := by
        refine ⟨h.ascending, h.below, h.size_le, fun id hid => ?_, fun j hj => ?_⟩
        · rcases List.mem_append.mp hid with hid | hid
          · exact h.called_lt id hid
          · rw [List.mem_singleton.mp hid]
            exact h.below r.id (List.mem_map.mpr ⟨r, List.mem_of_getElem? hread, rfl⟩)
        · obtain rfl := Loop.running.inj hj
          exact ⟨Nat.lt_of_le_of_ne hi hend, hrest⟩
      exact ⟨hsound, iff_of_true ⟨hsound.called_le hnext.once, hnext⟩ (.inr ⟨hbuffer, hlength⟩)⟩

/-- The call begins with everybody still to come. -/
theorem begin_sound (callbacks : List ℕ) (spare : ℕ) (safe : Bool) :
    (begin (holding callbacks spare) safe).Sound ∧
      (begin (holding callbacks spare) safe).Served := by
  have hids : ids (entered (holding callbacks spare) safe).caller.callbacks_ =
      List.range callbacks.length := by
    refine List.ext_getElem (by simp [ids, entered, holding]) fun i h₁ h₂ => ?_
    simp [ids, entered, holding]
  have hsize : (entered (holding callbacks spare) safe).size = callbacks.length :=
    List.length_mapIdx
  have hsound : (entered (holding callbacks spare) safe).Sound := by
    refine ⟨?_, fun id hid => ?_, hsize.le, fun id hid => absurd hid List.not_mem_nil,
      fun i hi => by cases hi⟩
    · rw [hids]
      exact List.pairwise_lt_range
    · rw [hids] at hid
      exact List.mem_range.mp hid
  have hkept := Round.kept_begin (List.range callbacks.length) (List.range callbacks.length)
  obtain ⟨hbegin, hserved⟩ := hsound.reach (i := 0) (Nat.zero_le _)
    (fun id _ => List.not_mem_nil) (by rw [List.drop_zero, hids, hsize]; exact hkept)
  refine ⟨hbegin, hserved.mpr ?_⟩
  rcases Nat.eq_zero_or_pos (holding callbacks spare).callbacks_.length with hzero | hpos
  · exact .inl hzero.symm
  · exact .inr ⟨rfl, hpos⟩

/-- The running callback has been called last, and whoever is to come has not. -/
theorem Served.running (h : d.Served) (hloop : d.loop = .running i) :
    Round.Kept (List.range d.size)
      ⟨ids d.caller.callbacks_, ids (d.caller.callbacks_.drop (i + 1)), d.called⟩ := by
  have hkept := h.2
  rw [hloop] at hkept
  exact hkept

/-- **A callback returns.** -/
theorem Sound.returns (h : d.Sound) (hserved : d.Served) (hloop : d.loop = .running i)
    {threw : Bool} {e : Dispatch} (hstep : d.step (.returns threw) = some e) :
    e.Sound ∧ (e.Served ↔ d.Holds (.returns threw)) := by
  have hkept := hserved.running hloop
  obtain ⟨hi, hwaiting⟩ := h.waiting i hloop
  have hholds : d.Holds (.returns threw) ↔ if threw = true ∧ d.safe = false then
      ∀ r ∈ d.caller.callbacks_.drop (i + 1), d.size ≤ r.id
      else i + 1 = d.size ∨ d.caller.buffer = d.buffer ∧ i + 1 < d.caller.callbacks_.length := by
    refine ⟨fun hall => hall i hloop, fun hone j hj => ?_⟩
    obtain rfl := Loop.running.inj (hloop.symm.trans hj)
    exact hone
  rw [hholds]
  simp only [step, hloop] at hstep
  rw [← hloop] at hstep
  by_cases hleft : threw = true ∧ d.safe = false
  · rw [if_pos hleft] at hstep
    obtain ⟨⟩ := hstep
    rw [if_pos hleft]
    refine ⟨h.halt (by simp), (and_iff_right hserved.1).trans ((hkept.ends_iff hwaiting).trans ?_)⟩
    refine ⟨fun hnone r hr => not_lt.mp fun hthere => ?_, fun hnew id hid hthere _ => ?_⟩
    · exact hnone r.id (List.mem_map.mpr ⟨r, hr, rfl⟩) (List.mem_range.mpr hthere)
        (List.mem_map.mpr ⟨r, List.mem_of_mem_drop hr, rfl⟩)
    · obtain ⟨r, hr, rfl⟩ := List.mem_map.mp hid
      exact absurd (hnew r hr) (Nat.not_le.mpr (List.mem_range.mp hthere))
  · rw [if_neg hleft] at hstep
    obtain ⟨⟩ := hstep
    rw [if_neg hleft]
    have hsound : Sound { d with
        exceptions_count := if threw then d.exceptions_count + 1 else d.exceptions_count } :=
      ⟨h.ascending, h.below, h.size_le, h.called_lt, h.waiting⟩
    exact hsound.reach (i := i + 1) hi hwaiting hkept

/-- **A callback registers another one.** -/
theorem Sound.registers (h : d.Sound) (hserved : d.Served) (hloop : d.loop = .running i)
    (callback : Option ℕ) :
    Sound { d with caller := d.caller.registerCallback callback } ∧
      Served { d with caller := d.caller.registerCallback callback } := by
  cases callback with
  | none => exact ⟨h, hserved⟩
  | some callback =>
    have hkept := hserved.running hloop
    have hids : ids (d.caller.pushBack callback).callbacks_ =
        ids d.caller.callbacks_ ++ [d.caller.registrations] := List.map_append
    have hdrop : ids ((d.caller.pushBack callback).callbacks_.drop (i + 1)) =
        ids (d.caller.callbacks_.drop (i + 1)) ++
          [d.caller.registrations].drop (i + 1 - d.caller.callbacks_.length) := by
      rw [ids_drop, hids, List.drop_append, ← ids_drop, ids, ids, List.length_map]
    have hsound : Sound { d with caller := d.caller.pushBack callback } := by
      refine ⟨?_, fun id hid => ?_, h.size_le.trans (Nat.le_succ _),
        fun id hid => (h.called_lt id hid).trans (Nat.lt_succ_self _), fun j hj => ?_⟩
      · rw [hids, List.pairwise_append]
        refine ⟨h.ascending, List.pairwise_singleton .., fun id hid n hn => ?_⟩
        rw [List.mem_singleton.mp hn]
        exact h.below id hid
      · rw [hids] at hid
        rcases List.mem_append.mp hid with hid | hid
        · exact (h.below id hid).trans (Nat.lt_succ_self _)
        · rw [List.mem_singleton.mp hid]
          exact Nat.lt_succ_self _
      · obtain rfl := Loop.running.inj (hloop.symm.trans hj)
        obtain ⟨hi, hwaiting⟩ := h.waiting i hloop
        refine ⟨hi, fun id hid hcalled => ?_⟩
        rw [hdrop] at hid
        rcases List.mem_append.mp hid with hid | hid
        · exact hwaiting id hid hcalled
        · rw [List.mem_singleton.mp (List.mem_of_mem_drop hid)] at hcalled
          exact absurd (h.called_lt _ hcalled) (Nat.lt_irrefl _)
    refine ⟨hsound, hsound.called_le hkept.once, ?_⟩
    simp only [hloop]
    refine hkept.edit rfl (fun id hid hlisted => ?_) fun id _ _ hahead => ?_
    · rw [registerCallback, hids] at hlisted
      rcases List.mem_append.mp hlisted with hlisted | hnew
      · exact hlisted
      · have hlt := List.mem_range.mp hid
        have hle := h.size_le
        have hsame := List.mem_singleton.mp hnew
        omega
    · rw [registerCallback, hdrop]
      exact List.mem_append_left _ hahead

/-- The callbacks up to the running one, and the ones behind it, after some have been taken away. -/
structure Shrinks (d : Dispatch) (i : ℕ) (front back : List Registration) : Prop where
  front : front.Sublist (d.caller.callbacks_.take (i + 1))
  back : back.Sublist (d.caller.callbacks_.drop (i + 1))

/-- The call with these callbacks left. -/
def leave (d : Dispatch) (callbacks : List Registration) : Dispatch :=
  { d with caller := { d.caller with callbacks_ := callbacks } }

theorem ids_append (xs ys : List Registration) : ids (xs ++ ys) = ids xs ++ ids ys :=
  List.map_append

theorem ids_sublist {xs ys : List Registration} (h : xs.Sublist ys) : (ids xs).Sublist (ids ys) :=
  h.map _

variable {front back : List Registration}

theorem Shrinks.sublist (h : d.Shrinks i front back) :
    (ids (front ++ back)).Sublist (ids d.caller.callbacks_) := by
  refine ids_sublist ?_
  have happend := h.front.append h.back
  rwa [List.take_append_drop] at happend

/-- What stands behind the running position then stood behind it before. -/
theorem Shrinks.drop_sublist (h : d.Shrinks i front back) :
    ((front ++ back).drop (i + 1)).Sublist (back.drop (i + 1 - front.length)) := by
  have hlength := h.front.length_le
  rw [List.length_take] at hlength
  rw [List.drop_append, List.drop_of_length_le (by omega : front.length ≤ i + 1), List.nil_append]

theorem Sound.shrinks (h : d.Sound) (hs : d.Shrinks i front back) (hloop : d.loop = .running i) :
    (d.leave (front ++ back)).Sound := by
  refine ⟨h.ascending.sublist hs.sublist, fun id hid => h.below id (hs.sublist.subset hid),
    h.size_le, h.called_lt, fun j hj => ?_⟩
  obtain rfl := Loop.running.inj (hloop.symm.trans hj)
  obtain ⟨hi, hwaiting⟩ := h.waiting i hloop
  refine ⟨hi, fun id hid => hwaiting id ?_⟩
  have hsub := (hs.drop_sublist.trans (List.drop_sublist ..)).trans hs.back
  exact (ids_sublist hsub).subset hid

/-- Nobody stands on both sides of the running position. -/
theorem Sound.apart (h : d.Sound) {id : ℕ} (hfront : id ∈ ids (d.caller.callbacks_.take (i + 1)))
    (hback : id ∈ ids (d.caller.callbacks_.drop (i + 1))) : False := by
  have hascending := h.ascending
  rw [← List.take_append_drop (i + 1) d.caller.callbacks_, ids_append, List.pairwise_append]
    at hascending
  exact absurd (hascending.2.2 id hfront id hback) (Nat.lt_irrefl id)

/-- **Callbacks are taken away**: the others keep their turns exactly if none is gone up to the
running position, or nobody of the beginning is left behind it. -/
theorem Sound.served_shrinks (h : d.Sound) (hserved : d.Served) (hs : d.Shrinks i front back)
    (hloop : d.loop = .running i) : (d.leave (front ++ back)).Served ↔
      front.length = (d.caller.callbacks_.take (i + 1)).length ∨ ∀ r ∈ back, d.size ≤ r.id := by
  have hkept := hserved.running hloop
  have hiff : (d.leave (front ++ back)).Served ↔ Round.Kept (List.range d.size)
      ⟨ids (front ++ back), ids ((front ++ back).drop (i + 1)), d.called⟩ := by
    rw [Served, leave]
    simp only [hloop]
    exact and_iff_right hserved.1
  rw [hiff]
  constructor
  · intro hkeep
    by_contra hnot
    obtain ⟨hgone, hleft⟩ := not_or.mp hnot
    push Not at hleft
    obtain ⟨r, hr, hthere⟩ := hleft
    -- the first one that is left steps to the running position, or before it
    cases back with
    | nil => exact List.not_mem_nil hr
    | cons first rest =>
      have hascending : (ids (first :: rest)).Pairwise (· < ·) := by
        have hsub := ids_sublist hs.back
        rw [ids_drop] at hsub
        exact h.ascending.drop.sublist hsub
      have hfirst : first.id ≤ r.id := by
        rcases List.mem_cons.mp hr with rfl | hr
        · exact Nat.le_refl _
        · exact ((List.pairwise_cons.mp hascending).1 r.id
            (List.mem_map.mpr ⟨r, hr, rfl⟩)).le
      have hlength := hs.front.length_le
      rw [List.length_take] at hlength hgone
      have hpassed : first.id ∉ ids ((front ++ first :: rest).drop (i + 1)) := by
        intro hmem
        have hrest := (ids_sublist hs.drop_sublist).subset hmem
        obtain ⟨k, hk⟩ : ∃ k, i + 1 - front.length = k + 1 := ⟨i - front.length, by omega⟩
        rw [hk, List.drop_succ_cons, ids_drop] at hrest
        exact absurd ((List.pairwise_cons.mp hascending).1 _ (List.mem_of_mem_drop hrest))
          (Nat.lt_irrefl _)
      have hback : first.id ∈ ids (d.caller.callbacks_.drop (i + 1)) :=
        (ids_sublist hs.back).subset (List.mem_map.mpr ⟨first, List.mem_cons_self, rfl⟩)
      refine Round.not_kept_of_passed (List.mem_range.mpr (hfirst.trans_lt hthere)) ?_
        ((h.waiting i hloop).2 _ hback) hpassed hkeep
      exact List.mem_map.mpr ⟨first, List.mem_append_right _ List.mem_cons_self, rfl⟩
  · intro hleaves
    refine hkept.edit rfl (fun id _ hlisted => hs.sublist.subset hlisted)
      fun id hid hlisted hahead => ?_
    change id ∈ ids (front ++ back) at hlisted
    rw [ids_append, List.mem_append] at hlisted
    rcases hlisted with hfront | hback
    · exact (h.apart ((ids_sublist hs.front).subset hfront) hahead).elim
    · rcases hleaves with hlength | hnew
      · change id ∈ ids (d.caller.callbacks_.drop (i + 1)) at hahead
        have hmore := List.length_pos_of_mem hahead
        rw [ids, List.length_map, List.length_drop] at hmore
        rw [List.length_take] at hlength
        have hdrop : (front ++ back).drop (i + 1) = back := List.drop_left' (by omega)
        change id ∈ ids ((front ++ back).drop (i + 1))
        rwa [hdrop]
      · obtain ⟨r, hr, rfl⟩ := List.mem_map.mp hback
        exact absurd (hnew r hr) (Nat.not_le.mpr (List.mem_range.mp hid))

/-- The first match is taken away from the callbacks up to the running one, or from the others. -/
theorem Sound.unregisters (h : d.Sound) (hserved : d.Served) (hloop : d.loop = .running i)
    (callback : Option ℕ) :
    (d.leave (d.caller.unregisterCallback callback).1.callbacks_).Sound ∧
      ((d.leave (d.caller.unregisterCallback callback).1.callbacks_).Served ↔
        d.LeavesPlace i (.unregisterCallback callback)) := by
  have hsplit : (d.caller.unregisterCallback callback).1.callbacks_ =
      (d.caller.callbacks_.take (i + 1) ++ d.caller.callbacks_.drop (i + 1)).eraseP
        fun r => some r.callback == callback := by
    rw [List.take_append_drop]
    rfl
  rw [hsplit, List.eraseP_append]
  split_ifs with hany
  · have hs : d.Shrinks i ((d.caller.callbacks_.take (i + 1)).eraseP
        fun r => some r.callback == callback) (d.caller.callbacks_.drop (i + 1)) :=
      ⟨List.eraseP_sublist, List.Sublist.refl _⟩
    refine ⟨h.shrinks hs hloop, (h.served_shrinks hserved hs hloop).trans (or_congr_left ?_)⟩
    obtain ⟨r, hr, hmatch⟩ := List.any_eq_true.mp hany
    have hlength : ((d.caller.callbacks_.take (i + 1)).eraseP fun r =>
        some r.callback == callback).length = (d.caller.callbacks_.take (i + 1)).length - 1 :=
      List.length_eraseP_of_mem hr hmatch
    have hpos := List.length_pos_of_mem hr
    refine iff_of_false (by omega) fun hnone => hnone r hr (beq_iff_eq.mp hmatch)
  · have hs : d.Shrinks i (d.caller.callbacks_.take (i + 1))
        ((d.caller.callbacks_.drop (i + 1)).eraseP fun r => some r.callback == callback) :=
      ⟨List.Sublist.refl _, List.eraseP_sublist⟩
    refine ⟨h.shrinks hs hloop, (h.served_shrinks hserved hs hloop).trans
      (iff_of_true (.inl rfl) (.inl fun r hr hmatch => hany ?_))⟩
    exact List.any_eq_true.mpr ⟨r, hr, beq_iff_eq.mpr hmatch⟩

/-- Every match is taken away. -/
theorem Sound.unregistersAll (h : d.Sound) (hserved : d.Served) (hloop : d.loop = .running i)
    (callback : Option ℕ) :
    (d.leave (d.caller.unregisterAllCallback callback).1.callbacks_).Sound ∧
      ((d.leave (d.caller.unregisterAllCallback callback).1.callbacks_).Served ↔
        d.LeavesPlace i (.unregisterAllCallback callback)) := by
  have hsplit : (d.caller.unregisterAllCallback callback).1.callbacks_ =
      (d.caller.callbacks_.take (i + 1)).filter (fun r => some r.callback != callback) ++
        (d.caller.callbacks_.drop (i + 1)).filter fun r => some r.callback != callback := by
    rw [← List.filter_append, List.take_append_drop]
    rfl
  have hs : d.Shrinks i
      ((d.caller.callbacks_.take (i + 1)).filter fun r => some r.callback != callback)
      ((d.caller.callbacks_.drop (i + 1)).filter fun r => some r.callback != callback) :=
    ⟨List.filter_sublist, List.filter_sublist⟩
  rw [hsplit]
  refine ⟨h.shrinks hs hloop, (h.served_shrinks hserved hs hloop).trans (or_congr ?_ ?_)⟩
  · rw [List.length_filter_eq_length_iff]
    simp
  · simp [List.mem_filter]

/-- **One step keeps everybody served exactly if the condition holds.** -/
theorem Sound.step (h : d.Sound) (hserved : d.Served) {a : Label} {e : Dispatch}
    (hstep : d.step a = some e) : e.Sound ∧ (e.Served ↔ d.Holds a) := by
  cases a with
  | returns threw =>
    cases hloop : d.loop with
    | running i => exact h.returns hserved hloop hstep
    | _ =>
      simp only [Dispatch.step, hloop] at hstep
      cases hstep
  | edit edit =>
    cases hloop : d.loop with
    | running i =>
      have hholds : d.Holds (.edit edit) ↔ d.LeavesPlace i edit := by
        refine ⟨fun hall => hall i hloop, fun hone j hj => ?_⟩
        obtain rfl := Loop.running.inj (hloop.symm.trans hj)
        exact hone
      simp only [Dispatch.step, hloop] at hstep
      rw [← hloop] at hstep
      obtain ⟨⟩ := hstep
      rw [hholds]
      cases edit with
      | registerCallback callback =>
        obtain ⟨hsound, hserved⟩ := h.registers hserved hloop callback
        exact ⟨hsound, iff_of_true hserved trivial⟩
      | unregisterCallback callback => exact h.unregisters hserved hloop callback
      | unregisterAllCallback callback => exact h.unregistersAll hserved hloop callback
      | clear =>
        have hs : d.Shrinks i [] [] := ⟨List.nil_sublist _, List.nil_sublist _⟩
        exact ⟨h.shrinks hs hloop, iff_of_true ((h.served_shrinks hserved hs hloop).mpr
          (.inr fun r hr => absurd hr List.not_mem_nil)) trivial⟩
    | _ =>
      simp only [Dispatch.step, hloop] at hstep
      cases hstep

/-- **A call of `callCallbacks` or `callCallbacksSafe` serves everybody** exactly if the condition
holds in each step. -/
theorem always_served_iff (callbacks : List ℕ) (spare : ℕ) (safe : Bool) (as : List Label) :
    dispatches.Always Served (begin (holding callbacks spare) safe) as ↔
      dispatches.Allowed Holds (begin (holding callbacks spare) safe) as := by
  obtain ⟨hsound, hserved⟩ := begin_sound callbacks spare safe
  exact Machine.always_iff_allowed (I := Sound) (fun _ _ _ hI hP hstep => (hI.step hP hstep).1)
    (fun _ _ _ hI hP hstep => (hI.step hP hstep).2) hsound hserved as

end Dispatch

end Caller

end AxonVex
