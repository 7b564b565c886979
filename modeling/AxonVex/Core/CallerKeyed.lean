import AxonVex.Machinery.Machine
import AxonVex.Core.Caller
import Mathlib.Data.Prod.Lex

/-!
# Core/CallerKeyed — callbacks under keys, which they edit while they are called

`callCallbacksByKey` copies the callbacks of its key and goes through the copy: whatever they do to
the caller, each has its turn.  `callAllCallbacks` goes through the multimap
itself.  A registration invalidates no iterator of a multimap, and an unregistration only those of
the node it takes away; so the loop goes astray exactly if the running callback's own registration
is gone when it returns (`always_served_iff`), and the next node is read from a freed one.

A registration is known by its number; under one key the multimap keeps the order of registration.
-/

namespace AxonVex

open Machinery

/-- A node of the multimap: which registration it is, its key and the pointer. -/
structure KeyedRegistration (K : Type*) where
  id : ℕ
  key : K
  callback : ℕ
  deriving DecidableEq, Repr

namespace CallerKeyed

/-- `CallerKeyed`, with the nodes of its multimap. -/
structure Nodes (K : Type*) where
  /-- the nodes of the multimap, in their order -/
  keyed_callbacks_ : List (KeyedRegistration K) := []
  /-- how many registrations there were -/
  registrations : ℕ := 0
  deriving DecidableEq, Repr

namespace Nodes

variable {K : Type*} [LinearOrder K]

/-- What a callback may do to its caller; the pointer `none` is null. -/
inductive Edit (K : Type*)
  | registerKeyedCallback (key : K) (callback : Option ℕ)
  | unregisterKeyedCallback (key : K) (callback : Option ℕ)
  | unregisterAllCallbacksForKey (key : K)
  | unregisterAllCallback (callback : Option ℕ)
  | clear
  deriving DecidableEq, Repr

/-- A multimap puts a node behind the others under its key. -/
def insert (c : Nodes K) (key : K) (callback : ℕ) : Nodes K where
  keyed_callbacks_ :=
    c.keyed_callbacks_.orderedInsert (fun r s => r.key < s.key) ⟨c.registrations, key, callback⟩
  registrations := c.registrations + 1

def registerKeyedCallback (c : Nodes K) (key : K) (callback : Option ℕ) : Nodes K :=
  match callback with
  | some callback => c.insert key callback
  | none => c

def getCallbacksForKey (c : Nodes K) (key : K) : List (KeyedRegistration K) :=
  c.keyed_callbacks_.filter fun r => r.key == key

def unregisterKeyedCallback (c : Nodes K) (key : K) (callback : Option ℕ) :
    Nodes K × Bool :=
  ({ c with keyed_callbacks_ :=
      c.keyed_callbacks_.eraseP fun r => r.key == key && some r.callback == callback },
    (c.getCallbacksForKey key).any fun r => some r.callback == callback)

/-- What is left, and how many went. -/
def unregisterAllCallbacksForKey (c : Nodes K) (key : K) : Nodes K × ℕ :=
  ({ c with keyed_callbacks_ := c.keyed_callbacks_.filter fun r => r.key != key },
    (c.getCallbacksForKey key).length)

def unregisterAllCallback (c : Nodes K) (callback : Option ℕ) : Nodes K × ℕ :=
  ({ c with keyed_callbacks_ := c.keyed_callbacks_.filter fun r => some r.callback != callback },
    c.keyed_callbacks_.countP fun r => some r.callback == callback)

def clear (c : Nodes K) : Nodes K := { c with keyed_callbacks_ := [] }

def edit (c : Nodes K) : Edit K → Nodes K
  | .registerKeyedCallback key callback => c.registerKeyedCallback key callback
  | .unregisterKeyedCallback key callback => (c.unregisterKeyedCallback key callback).1
  | .unregisterAllCallbacksForKey key => (c.unregisterAllCallbacksForKey key).1
  | .unregisterAllCallback callback => (c.unregisterAllCallback callback).1
  | .clear => c.clear

/-- A caller that holds these callbacks under these keys. -/
def holding (callbacks : List (K × ℕ)) : Nodes K :=
  callbacks.foldl (fun c p => c.insert p.1 p.2) {}

/-- The registrations in these nodes. -/
def ids (callbacks : List (KeyedRegistration K)) : List ℕ := callbacks.map (·.id)

/-- Where a node stands: under its key, in the order of registration. -/
def place (r : KeyedRegistration K) : K ×ₗ ℕ := toLex (r.key, r.id)

/-- The nodes stand in order, and each has a number of its own that has been given. -/
structure Ordered (c : Nodes K) : Prop where
  sorted : c.keyed_callbacks_.Pairwise fun r s => place r < place s
  nodup : (ids c.keyed_callbacks_).Nodup
  below : ∀ r ∈ c.keyed_callbacks_, r.id < c.registrations

/-- What an edit leaves: the nodes are in order, and the ones with an old number are old. -/
structure Edited (c c' : Nodes K) : Prop where
  ordered : c'.Ordered
  grows : c.registrations ≤ c'.registrations
  old : ∀ r ∈ c'.keyed_callbacks_, r.id < c.registrations → r ∈ c.keyed_callbacks_

variable {c : Nodes K}

theorem ordered_nil : ({} : Nodes K).Ordered :=
  ⟨List.Pairwise.nil, List.nodup_nil, fun _ hr => absurd hr List.not_mem_nil⟩

/-- **A registration** stands behind the others under its key. -/
theorem Ordered.insert (h : c.Ordered) (key : K) (callback : ℕ) :
    c.Edited (c.insert key callback) := by
  have hmem (r : KeyedRegistration K) : r ∈ (c.insert key callback).keyed_callbacks_ ↔
      r = ⟨c.registrations, key, callback⟩ ∨ r ∈ c.keyed_callbacks_ := List.mem_orderedInsert _
  have hids : (ids (c.insert key callback).keyed_callbacks_).Perm
      (c.registrations :: ids c.keyed_callbacks_) := (List.perm_orderedInsert _ _ _).map _
  refine ⟨⟨pairwise_orderedInsert h.sorted (fun r _ hkey => ?_) fun r hr hkey => ?_, ?_,
    fun r hr => ?_⟩, Nat.le_succ _, fun r hr hold => ?_⟩
  · exact Prod.Lex.toLex_lt_toLex.mpr (.inl hkey)
  · -- it comes behind its equals, as its number is the greatest
    refine Prod.Lex.toLex_lt_toLex.mpr ?_
    rcases (not_lt.mp hkey).lt_or_eq with hless | hequal
    · exact .inl hless
    · exact .inr ⟨hequal, h.below r hr⟩
  · refine hids.nodup_iff.mpr (List.nodup_cons.mpr ⟨fun hin => ?_, h.nodup⟩)
    obtain ⟨r, hr, hid⟩ := List.mem_map.mp hin
    exact absurd (h.below r hr) (Nat.not_lt.mpr hid.ge)
  · rcases (hmem r).mp hr with rfl | hr
    · exact Nat.lt_succ_self _
    · exact (h.below r hr).trans (Nat.lt_succ_self _)
  · rcases (hmem r).mp hr with rfl | hr
    · exact absurd hold (Nat.lt_irrefl _)
    · exact hr

/-- **An unregistration.** -/
theorem Ordered.leave (h : c.Ordered) {callbacks : List (KeyedRegistration K)}
    (hsub : callbacks.Sublist c.keyed_callbacks_) :
    c.Edited { c with keyed_callbacks_ := callbacks } where
  ordered := ⟨h.sorted.sublist hsub, h.nodup.sublist (hsub.map _),
    fun r hr => h.below r (hsub.subset hr)⟩
  grows := Nat.le_refl _
  old _ hr _ := hsub.subset hr

theorem Ordered.edit (h : c.Ordered) (e : Edit K) : c.Edited (c.edit e) := by
  have hkeep : c.Edited c := h.leave (List.Sublist.refl _)
  cases e with
  | registerKeyedCallback key callback =>
    cases callback with
    | none => exact hkeep
    | some callback => exact h.insert key callback
  | unregisterKeyedCallback key callback => exact h.leave List.eraseP_sublist
  | unregisterAllCallbacksForKey key => exact h.leave List.filter_sublist
  | unregisterAllCallback callback => exact h.leave List.filter_sublist
  | clear => exact h.leave (List.nil_sublist _)

theorem holding_ordered (callbacks : List (K × ℕ)) : (holding callbacks).Ordered := by
  refine List.foldlRecOn callbacks _ ordered_nil fun c hc p _ => ?_
  exact (hc.insert p.1 p.2).ordered

/-- Where the loop stands. -/
inductive Loop (K : Type*)
  /-- a callback of the copy is running, and these are still to come -/
  | copied (rest : List (KeyedRegistration K))
  /-- the callback of this node is running -/
  | node (cur : KeyedRegistration K)
  | over
  /-- an exception has left the loop -/
  | left
  /-- it has gone on from a node that was freed -/
  | dangling
  deriving DecidableEq, Repr

/-- A call of `callCallbacksByKey` or `callAllCallbacks` or, `safe`, of their safe variants. -/
structure Dispatch (K : Type*) where
  caller : Nodes K
  safe : Bool
  /-- the registrations the call is for -/
  there : List ℕ
  loop : Loop K := .over
  /-- the registrations that have been called -/
  called : List ℕ := []
  exceptions_count : ℕ := 0

namespace Dispatch

/-- The loop goes on to the first of these, if there is one. -/
def turn (d : Dispatch K) (loop : KeyedRegistration K → List (KeyedRegistration K) → Loop K) :
    List (KeyedRegistration K) → Dispatch K
  | [] => { d with loop := .over }
  | r :: rest => { d with loop := loop r rest, called := d.called ++ [r.id] }

/-- The loop has taken its copy, or its first node. -/
def entered (c : Nodes K) (safe : Bool) (callbacks : List (KeyedRegistration K)) :
    Dispatch K where
  caller := c
  safe := safe
  there := ids callbacks

/-- `callCallbacksByKey(key, data)`, or `callCallbacksByKeySafe(key, data)`. -/
def beginByKey (c : Nodes K) (safe : Bool) (key : K) : Dispatch K :=
  (entered c safe (c.getCallbacksForKey key)).turn (fun _ rest => .copied rest)
    (c.getCallbacksForKey key)

/-- `callAllCallbacks(data)`, or `callAllCallbacksSafe(data)`. -/
def beginAll (c : Nodes K) (safe : Bool) : Dispatch K :=
  (entered c safe c.keyed_callbacks_).turn (fun cur _ => .node cur) c.keyed_callbacks_

/-- What the running callback does. -/
inductive Label (K : Type*)
  | edit (e : Edit K)
  | returns (threw : Bool)
  deriving DecidableEq, Repr

/-- The exception, if there is one, has been caught. -/
def caught (d : Dispatch K) (threw : Bool) : Dispatch K :=
  { d with exceptions_count := if threw then d.exceptions_count + 1 else d.exceptions_count }

/-- The node behind this one is the next, if this one is still there. -/
def goOn (d : Dispatch K) (cur : KeyedRegistration K) : Dispatch K :=
  match d.caller.keyed_callbacks_.dropWhile (· != cur) with
  | [] => { d with loop := .dangling }
  | _ :: rest => d.turn (fun cur _ => .node cur) rest

def step (d : Dispatch K) : Label K → Option (Dispatch K)
  | .edit e => match d.loop with
    | .copied _ | .node _ => some { d with caller := d.caller.edit e }
    | _ => none
  | .returns threw => match d.loop with
    | .copied rest =>
      if threw ∧ d.safe = false then some { d with loop := .left }
      else some ((d.caught threw).turn (fun _ rest => .copied rest) rest)
    | .node cur =>
      if threw ∧ d.safe = false then some { d with loop := .left }
      else some ((d.caught threw).goOn cur)
    | _ => none

/-- The calls of the four functions. -/
def dispatches (K : Type*) [LinearOrder K] : Machine (Dispatch K) (Label K) where
  init d := ∃ callbacks safe, (∃ key, d = beginByKey (holding callbacks) safe key) ∨
    d = beginAll (holding callbacks) safe
  step := step

/-- Who is still before the loop. -/
def ahead (d : Dispatch K) : List (KeyedRegistration K) :=
  match d.loop with
  | .copied rest => rest
  | .node cur => d.caller.keyed_callbacks_.filter fun r => place cur < place r
  | _ => []

/-- **Every callback is served**: whoever the call is for and is still registered has been called
once or is still before the loop; the loop has gone on from no freed node, and it takes at most one
turn for a registration. -/
def Served (d : Dispatch K) : Prop :=
  d.called.length ≤ d.caller.registrations ∧
  match d.loop with
  | .dangling => False
  | _ => Round.Kept d.there ⟨ids d.caller.keyed_callbacks_, ids d.ahead, d.called⟩

/-- **The condition**: an exception leaves the loop only if nobody that the call is for is still
registered and before the loop; and when the callback of a node returns otherwise, its registration
is still there. -/
def Holds (d : Dispatch K) : Label K → Prop
  | .edit _ => True
  | .returns threw =>
      if threw = true ∧ d.safe = false then
        ∀ id ∈ ids d.ahead, id ∈ d.there → id ∉ ids d.caller.keyed_callbacks_
      else ∀ cur, d.loop = .node cur → cur ∈ d.caller.keyed_callbacks_

/-! ## The loop -/

/-- These are still to come: each once, and none has been called. -/
structure Waits (d : Dispatch K) (callbacks : List (KeyedRegistration K)) : Prop where
  nodup : (ids callbacks).Nodup
  fresh : ∀ r ∈ callbacks, r.id ∉ d.called
  below : ∀ r ∈ callbacks, r.id < d.caller.registrations

/-- **The invariant of a call.** -/
structure Sound (d : Dispatch K) : Prop where
  ordered : d.caller.Ordered
  there_lt : ∀ id ∈ d.there, id < d.caller.registrations
  called_lt : ∀ id ∈ d.called, id < d.caller.registrations
  waits : d.Waits d.ahead

variable {d : Dispatch K} {cur r : KeyedRegistration K}
  {callbacks rest : List (KeyedRegistration K)}

omit [LinearOrder K] in
theorem waits_nil (d : Dispatch K) : d.Waits [] :=
  ⟨List.nodup_nil, fun _ hr => absurd hr List.not_mem_nil, fun _ hr => absurd hr List.not_mem_nil⟩

theorem Waits.of_ordered (h : d.caller.Ordered) (hsub : callbacks.Sublist d.caller.keyed_callbacks_)
    (hfresh : ∀ r ∈ callbacks, r.id ∉ d.called) : d.Waits callbacks :=
  ⟨h.nodup.sublist (hsub.map _), hfresh, fun r hr => h.below r (hsub.subset hr)⟩

omit [LinearOrder K] in
/-- The first has its turn. -/
theorem Waits.tail (h : d.Waits (r :: rest)) (loop : Loop K) :
    Waits { d with loop := loop, called := d.called ++ [r.id] } rest := by
  obtain ⟨hr, hrest⟩ := List.nodup_cons.mp h.nodup
  refine ⟨hrest, fun s hs => ?_, fun s hs => h.below s (List.mem_cons_of_mem _ hs)⟩
  change s.id ∉ d.called ++ [r.id]
  rw [List.mem_append, List.mem_singleton, not_or]
  refine ⟨h.fresh s (List.mem_cons_of_mem _ hs), fun hsame => hr ?_⟩
  exact List.mem_map.mpr ⟨s, hs, hsame⟩

/-- Nobody is called more often than registered. -/
theorem Sound.called_le (h : d.Sound) (honce : d.called.Nodup) :
    d.called.length ≤ d.caller.registrations :=
  length_le_of_nodup honce h.called_lt

/-- A state in which the loop runs no more. -/
theorem Sound.halt (h : d.Sound) {loop : Loop K} (hahead : ahead { d with loop := loop } = []) :
    Sound { d with loop := loop } :=
  ⟨h.ordered, h.there_lt, h.called_lt, hahead ▸ waits_nil _⟩

theorem served_iff (h : d.loop ≠ .dangling) : d.Served ↔
    d.called.length ≤ d.caller.registrations ∧
      Round.Kept d.there ⟨ids d.caller.keyed_callbacks_, ids d.ahead, d.called⟩ := by
  rw [Served]
  cases hloop : d.loop with
  | dangling => exact absurd hloop h
  | _ => rfl

theorem Served.kept (h : d.Served) :
    Round.Kept d.there ⟨ids d.caller.keyed_callbacks_, ids d.ahead, d.called⟩ := by
  have hloop : d.loop ≠ .dangling := fun hloop => by
    have hnot := h.2
    rw [hloop] at hnot
    exact hnot
  exact ((served_iff hloop).mp h).2

/-- **The loop goes on** to the first of those that are still to come. -/
theorem Sound.turn (h : d.Sound)
    (loop : KeyedRegistration K → List (KeyedRegistration K) → Loop K) (hwaits : d.Waits callbacks)
    (hkept : Round.Kept d.there ⟨ids d.caller.keyed_callbacks_, ids callbacks, d.called⟩)
    (hruns : ∀ r rest, loop r rest ≠ .dangling)
    (hahead : ∀ r rest, callbacks = r :: rest → ahead { d with loop := loop r rest } = rest) :
    (d.turn loop callbacks).Sound ∧ (d.turn loop callbacks).Served := by
  cases callbacks with
  | nil => exact ⟨h.halt rfl, h.called_le hkept.once, hkept⟩
  | cons r rest =>
    have hahead := hahead r rest rfl
    have hsound : (d.turn loop (r :: rest)).Sound := by
      refine ⟨h.ordered, h.there_lt, fun id hid => ?_, ?_⟩
      · rcases List.mem_append.mp hid with hid | hid
        · exact h.called_lt id hid
        · rw [List.mem_singleton.mp hid]
          exact hwaits.below r List.mem_cons_self
      · change Waits _ (ahead { d with loop := loop r rest })
        rw [hahead]
        exact hwaits.tail _
    have hnext : Round.Kept d.there
        ⟨ids d.caller.keyed_callbacks_, ids rest, d.called ++ [r.id]⟩ :=
      hkept.take rfl (hwaits.fresh r List.mem_cons_self)
    have hruns : (d.turn loop (r :: rest)).loop ≠ .dangling := hruns r rest
    refine ⟨hsound, (served_iff hruns).mpr ⟨hsound.called_le hnext.once, ?_⟩⟩
    change Round.Kept d.there ⟨_, ids (ahead { d with loop := loop r rest }), _⟩
    rw [hahead]
    exact hnext

/-- The nodes behind one that is there are the ones whose places are behind its place. -/
theorem ahead_node (h : d.caller.Ordered) (front : List (KeyedRegistration K))
    (hsplit : d.caller.keyed_callbacks_ = front ++ cur :: rest) :
    ahead { d with loop := .node cur } = rest := by
  change d.caller.keyed_callbacks_.filter (fun r => place cur < place r) = rest
  rw [hsplit]
  exact filter_behind (hsplit ▸ h.sorted)

/-- **The loop goes on from a node** that is still there, and from no other. -/
theorem Sound.goOn (h : d.Sound) (hloop : d.loop = .node cur)
    (hkept : Round.Kept d.there ⟨ids d.caller.keyed_callbacks_, ids d.ahead, d.called⟩) :
    (d.goOn cur).Sound ∧ ((d.goOn cur).Served ↔ cur ∈ d.caller.keyed_callbacks_) := by
  rw [Dispatch.goOn]
  by_cases hcur : cur ∈ d.caller.keyed_callbacks_
  · obtain ⟨front, rest, hsplit, hdrop⟩ := exists_dropWhile_ne hcur
    have hrest : d.ahead = rest := by
      rw [← ahead_node h.ordered front hsplit, ← hloop]
    rw [hdrop]
    obtain ⟨hsound, hserved⟩ := h.turn (fun cur _ => .node cur) (hrest ▸ h.waits)
      (hrest ▸ hkept) (fun _ _ => by simp) fun r behind hbehind => by
        refine ahead_node h.ordered (front ++ [cur]) ?_
        rw [hsplit, hbehind, List.append_assoc, List.singleton_append]
    exact ⟨hsound, iff_of_true hserved hcur⟩
  · rw [dropWhile_ne_eq_nil hcur]
    exact ⟨h.halt rfl, iff_of_false And.right hcur⟩

/-- **A callback edits the caller**: nobody loses a turn. -/
theorem Sound.edits (h : d.Sound) (hserved : d.Served) (hruns : d.loop ≠ .dangling) (e : Edit K) :
    Sound { d with caller := d.caller.edit e } ∧ Served { d with caller := d.caller.edit e } := by
  obtain ⟨hordered, hgrows, hold⟩ := h.ordered.edit e
  have hkept := hserved.kept
  have hwaits : Waits { d with caller := d.caller.edit e }
      (ahead { d with caller := d.caller.edit e }) := by
    cases hloop : d.loop with
    | node cur =>
      have hwaits := h.waits
      simp only [ahead, hloop] at hwaits ⊢
      refine .of_ordered hordered List.filter_sublist fun r hr hcalled => ?_
      obtain ⟨hin, hbehind⟩ := List.mem_filter.mp hr
      -- a node with a new number has not been called
      have hwas := hold r hin (h.called_lt r.id hcalled)
      exact hwaits.fresh r (List.mem_filter.mpr ⟨hwas, hbehind⟩) hcalled
    | _ =>
      have hwaits := h.waits
      simp only [ahead, hloop] at hwaits ⊢
      exact ⟨hwaits.nodup, hwaits.fresh, fun r hr => (hwaits.below r hr).trans_le hgrows⟩
  have hsound : Sound { d with caller := d.caller.edit e } :=
    ⟨hordered, fun id hid => (h.there_lt id hid).trans_le hgrows,
      fun id hid => (h.called_lt id hid).trans_le hgrows, hwaits⟩
  have hruns' : Dispatch.loop { d with caller := d.caller.edit e } ≠ .dangling := hruns
  refine ⟨hsound, (served_iff hruns').mpr ⟨hsound.called_le hkept.once, ?_⟩⟩
  -- whoever is registered under an old number was registered before
  have hlisted : ∀ id ∈ d.there, ∀ r ∈ (d.caller.edit e).keyed_callbacks_, r.id = id →
      r ∈ d.caller.keyed_callbacks_ := by
    rintro id hid r hr rfl
    exact hold r hr (h.there_lt r.id hid)
  refine hkept.edit rfl (fun id hid hin => ?_) fun id hid hin hahead => ?_
  · obtain ⟨r, hr, hr_id⟩ := List.mem_map.mp hin
    exact List.mem_map.mpr ⟨r, hlisted id hid r hr hr_id, hr_id⟩
  · obtain ⟨r, hr, hr_id⟩ := List.mem_map.mp hin
    obtain ⟨s, hs, hs_id⟩ := List.mem_map.mp hahead
    cases hloop : d.loop with
    | node cur =>
      simp only [ahead, hloop] at hs ⊢
      obtain ⟨hin_s, hbehind⟩ := List.mem_filter.mp hs
      obtain rfl : r = s := List.inj_on_of_nodup_map h.ordered.nodup (hlisted id hid r hr hr_id)
        hin_s (hr_id.trans hs_id.symm)
      exact List.mem_map.mpr ⟨r, List.mem_filter.mpr ⟨hr, hbehind⟩, hr_id⟩
    | _ =>
      simp only [ahead, hloop] at hs ⊢
      exact List.mem_map.mpr ⟨s, hs, hs_id⟩

/-- The call begins with everybody it is for still to come. -/
theorem entered_sound (h : c.Ordered) (safe : Bool)
    (hsub : callbacks.Sublist c.keyed_callbacks_) :
    (entered c safe callbacks).Sound ∧ (entered c safe callbacks).Waits callbacks := by
  have hwaits : (entered c safe callbacks).Waits callbacks :=
    .of_ordered h hsub fun _ _ => List.not_mem_nil
  refine ⟨⟨h, fun id hid => ?_, fun id hid => absurd hid List.not_mem_nil, waits_nil _⟩, hwaits⟩
  obtain ⟨r, hr, rfl⟩ := List.mem_map.mp hid
  exact hwaits.below r hr

theorem beginByKey_sound (h : c.Ordered) (safe : Bool) (key : K) :
    (beginByKey c safe key).Sound ∧ (beginByKey c safe key).Served := by
  have hsub : (c.getCallbacksForKey key).Sublist c.keyed_callbacks_ := List.filter_sublist
  obtain ⟨hsound, hwaits⟩ := entered_sound h safe hsub
  exact hsound.turn _ hwaits (Round.kept_begin _ _) (fun _ _ => by simp)
    fun _ _ _ => rfl

theorem beginAll_sound (h : c.Ordered) (safe : Bool) :
    (beginAll c safe).Sound ∧ (beginAll c safe).Served := by
  obtain ⟨hsound, hwaits⟩ := entered_sound h safe (List.Sublist.refl _)
  exact hsound.turn _ hwaits (Round.kept_begin _ _) (fun _ _ => by simp)
    fun _ _ hrest => ahead_node h [] hrest

/-- **An exception leaves the loop.** -/
theorem Sound.leaves (h : d.Sound) (hserved : d.Served) :
    Sound { d with loop := .left } ∧ (Served { d with loop := .left } ↔
      ∀ id ∈ ids d.ahead, id ∈ d.there → id ∉ ids d.caller.keyed_callbacks_) := by
  refine ⟨h.halt rfl, (and_iff_right hserved.1).trans (hserved.kept.ends_iff fun id hid => ?_)⟩
  obtain ⟨r, hr, rfl⟩ := List.mem_map.mp hid
  exact h.waits.fresh r hr

/-- **A callback returns.** -/
theorem Sound.returns (h : d.Sound) (hserved : d.Served) {threw : Bool} {e : Dispatch K}
    (hstep : d.step (.returns threw) = some e) :
    e.Sound ∧ (e.Served ↔ d.Holds (.returns threw)) := by
  have hcaught : (d.caught threw).Sound :=
    ⟨h.ordered, h.there_lt, h.called_lt, h.waits.nodup, h.waits.fresh, h.waits.below⟩
  have hkept := hserved.kept
  cases hloop : d.loop with
  | copied rest =>
    have hahead : d.ahead = rest := by simp only [ahead, hloop]
    simp only [Dispatch.step, hloop] at hstep
    rw [Holds]
    split_ifs at hstep ⊢ with hleft
    · obtain ⟨⟩ := hstep
      exact h.leaves hserved
    · obtain ⟨⟩ := hstep
      have hwaits : (d.caught threw).Waits rest := hahead ▸ hcaught.waits
      obtain ⟨hsound, hserved⟩ := hcaught.turn (fun _ rest => .copied rest) hwaits
        (hahead ▸ hkept) (fun _ _ => by simp) fun _ _ _ => rfl
      refine ⟨hsound, iff_of_true hserved fun cur hcur => ?_⟩
      rw [hloop] at hcur
      cases hcur
  | node cur =>
    simp only [Dispatch.step, hloop] at hstep
    rw [Holds]
    split_ifs at hstep ⊢ with hleft
    · obtain ⟨⟩ := hstep
      exact h.leaves hserved
    · obtain ⟨⟩ := hstep
      obtain ⟨hsound, hserved⟩ := hcaught.goOn hloop hkept
      refine ⟨hsound, hserved.trans ⟨fun hcur cur' hcur' => ?_, fun hall => hall cur hloop⟩⟩
      obtain rfl := Loop.node.inj (hloop.symm.trans hcur')
      exact hcur
  | _ =>
    simp only [Dispatch.step, hloop] at hstep
    cases hstep

/-- **One step keeps everybody served exactly if the condition holds.** -/
theorem Sound.step (h : d.Sound) (hserved : d.Served) {a : Label K} {e : Dispatch K}
    (hstep : d.step a = some e) : e.Sound ∧ (e.Served ↔ d.Holds a) := by
  cases a with
  | returns threw => exact h.returns hserved hstep
  | edit edit =>
    have hedited : d.loop ≠ .dangling ∧ some { d with caller := d.caller.edit edit } = some e := by
      cases hloop : d.loop with
      | copied rest =>
        simp only [Dispatch.step, hloop] at hstep
        exact ⟨by simp, hloop ▸ hstep⟩
      | node cur =>
        simp only [Dispatch.step, hloop] at hstep
        exact ⟨by simp, hloop ▸ hstep⟩
      | _ =>
        simp only [Dispatch.step, hloop] at hstep
        cases hstep
    obtain ⟨hruns, ⟨⟩⟩ := hedited
    obtain ⟨hsound, hserved⟩ := h.edits hserved hruns edit
    exact ⟨hsound, iff_of_true hserved trivial⟩

/-- **A call serves everybody** exactly if the condition holds in each step. -/
theorem always_served_iff (hsound : d.Sound) (hserved : d.Served) (as : List (Label K)) :
    (dispatches K).Always Served d as ↔ (dispatches K).Allowed Holds d as :=
  Machine.always_iff_allowed (I := Sound) (fun _ _ _ hI hP hstep => (hI.step hP hstep).1)
    (fun _ _ _ hI hP hstep => (hI.step hP hstep).2) hsound hserved as

end Dispatch

end Nodes

end CallerKeyed

open CallerKeyed in
/-- **Every callback is served** by a call of `callCallbacks`, of `callAllCallbacks`, or of
`callCallbacksByKey`, or of their safe variants, exactly if the condition holds in each step. -/
theorem dispatches_serve_iff {K : Type*} [LinearOrder K] (callbacks : List ℕ) (spare : ℕ)
    (keyed : List (K × ℕ)) (key : K) (safe : Bool) (as : List Caller.Dispatch.Label)
    (bs : List (Nodes.Dispatch.Label K)) :
    (Caller.Dispatch.dispatches.Always Caller.Dispatch.Served
        (.begin (.holding callbacks spare) safe) as ↔
      Caller.Dispatch.dispatches.Allowed Caller.Dispatch.Holds
        (.begin (.holding callbacks spare) safe) as) ∧
    ((Nodes.Dispatch.dispatches K).Always Nodes.Dispatch.Served
        (.beginAll (.holding keyed) safe) bs ↔
      (Nodes.Dispatch.dispatches K).Allowed Nodes.Dispatch.Holds
        (.beginAll (.holding keyed) safe) bs) ∧
    ((Nodes.Dispatch.dispatches K).Always Nodes.Dispatch.Served
        (.beginByKey (.holding keyed) safe key) bs ↔
      (Nodes.Dispatch.dispatches K).Allowed Nodes.Dispatch.Holds
        (.beginByKey (.holding keyed) safe key) bs) := by
  have hordered := Nodes.holding_ordered keyed
  obtain ⟨hall, hall_served⟩ := Nodes.Dispatch.beginAll_sound hordered safe
  obtain ⟨hkey, hkey_served⟩ := Nodes.Dispatch.beginByKey_sound hordered safe key
  exact ⟨Caller.Dispatch.always_served_iff callbacks spare safe as,
    Nodes.Dispatch.always_served_iff hall hall_served bs,
    Nodes.Dispatch.always_served_iff hkey hkey_served bs⟩

open CallerKeyed in
/-- A callback unregisters itself: the vector's loop reads behind its last callback, and the
multimap's goes on from the freed node. -/
theorem unregistered_itself :
    ¬ Caller.Dispatch.dispatches.Always Caller.Dispatch.Served
        (.begin (.holding [10, 11] 0) true)
          [.edit (.unregisterCallback (some 10)), .returns false] ∧
      ¬ (Nodes.Dispatch.dispatches ℕ).Always Nodes.Dispatch.Served
        (.beginAll (.holding [(0, 10), (1, 11)]) true)
          [.edit (.unregisterAllCallback (some 10)), .returns false] := by
  constructor
  · intro hall
    have hrun : (Caller.Dispatch.dispatches.exec (.begin (.holding [10, 11] 0) true)
        [.edit (.unregisterCallback (some 10)), .returns false]).any
        (fun d => d.loop == .dangling) = true := by
      decide +kernel
    obtain ⟨d, hexec, hloop⟩ := (Option.any_eq_true _ _).mp hrun
    have hserved := (hall.exec hexec).2
    rw [beq_iff_eq.mp hloop] at hserved
    exact hserved
  · intro hall
    have hrun : ((Nodes.Dispatch.dispatches ℕ).exec (.beginAll (.holding [(0, 10), (1, 11)]) true)
        [.edit (.unregisterAllCallback (some 10)), .returns false]).any
        (fun d => d.loop == .dangling) = true := by
      decide +kernel
    obtain ⟨d, hexec, hloop⟩ := (Option.any_eq_true _ _).mp hrun
    have hserved := (hall.exec hexec).2
    rw [beq_iff_eq.mp hloop] at hserved
    exact hserved

end AxonVex
