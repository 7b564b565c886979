import Mathlib.Data.List.Basic

/-!
# Machinery/Visits — what is entered is left before the next is entered

    aside*  enter a  use a … use a  leave a  aside*  enter b  use b …

The calls on a family of elements are **bracketed** when they form such a sequence.  A program that
keeps a list of what it has still to do makes them so if the calls on that list lead from the
element that is entered to the one it takes for entered (`Leads`), and it changes its mind about
the latter only when no call is left on the list.
-/

namespace Machinery

/-- A call on an element. -/
inductive Visit (E : Type*)
  | enter (e : E)
  | use (e : E)
  | leave (e : E)
  /-- a call for which nothing may be entered -/
  | aside (e : E)
  deriving DecidableEq, Repr

/-- A stretch of calls before and after which nothing is entered. -/
inductive Stretch (E : Type*)
  | aside (e : E)
  /-- entered, used so many times, left -/
  | bracket (e : E) (uses : ℕ)

variable {E C : Type*}

/-- The calls of a stretch. -/
def Stretch.word : Stretch E → List (Visit E)
  | aside e => [.aside e]
  | bracket e uses => .enter e :: (List.replicate uses (.use e) ++ [.leave e])

/-- **Bracketed calls**, after which this is entered: whole stretches, and if something is entered
the beginning of one more. -/
def Bracketed (calls : List (Visit E)) : Option E → Prop
  | none => ∃ ws : List (Stretch E), calls = ws.flatMap Stretch.word
  | some e => ∃ (ws : List (Stretch E)) (uses : ℕ),
      calls = ws.flatMap Stretch.word ++ .enter e :: List.replicate uses (.use e)

/-- How a call changes what is entered. -/
inductive Visit.Moves : Visit E → Option E → Option E → Prop
  | enter (e : E) : Moves (.enter e) none (some e)
  | use (e : E) : Moves (.use e) (some e) (some e)
  | leave (e : E) : Moves (.leave e) (some e) none
  | aside (e : E) : Moves (.aside e) none none

/-- What is entered after a call. -/
def Visit.after : Visit E → Option E → Option E
  | enter e, _ => some e
  | leave _, _ => none
  | _, q => q

/-- What is entered after these calls. -/
def entered (calls : List (Visit E)) : Option E := calls.foldl (fun q v => v.after q) none

theorem Visit.Moves.after_eq {v : Visit E} {q r : Option E} (h : v.Moves q r) : v.after q = r := by
  cases h <;> rfl

@[simp] theorem entered_snoc (calls : List (Visit E)) (v : Visit E) :
    entered (calls ++ [v]) = v.after (entered calls) := by
  simp [entered]

theorem Bracketed.nil : Bracketed ([] : List (Visit E)) none := ⟨[], rfl⟩

/-- One call more. -/
theorem Bracketed.snoc {calls : List (Visit E)} {v : Visit E} {q r : Option E}
    (h : Bracketed calls q) (hv : v.Moves q r) : Bracketed (calls ++ [v]) r := by
  cases hv with
  | enter e =>
    obtain ⟨ws, rfl⟩ := h
    exact ⟨ws, 0, rfl⟩
  | use e =>
    obtain ⟨ws, uses, rfl⟩ := h
    exact ⟨ws, uses + 1, by simp [List.replicate_succ']⟩
  | leave e =>
    obtain ⟨ws, uses, rfl⟩ := h
    exact ⟨ws ++ [.bracket e uses], by simp [Stretch.word]⟩
  | aside e =>
    obtain ⟨ws, rfl⟩ := h
    exact ⟨ws ++ [.aside e], by simp [Stretch.word]⟩

/-- At most one call, and what it changes. -/
inductive Visit.Moved : List (Visit E) → Option E → Option E → Prop
  | none (q : Option E) : Moved [] q q
  | one {v : Visit E} {q r : Option E} : v.Moves q r → Moved [v] q r

/-- At most one call more. -/
theorem Bracketed.moved {calls vs : List (Visit E)} {r : Option E}
    (h : Bracketed calls (entered calls)) (hv : Visit.Moved vs (entered calls) r) :
    Bracketed (calls ++ vs) (entered (calls ++ vs)) ∧ entered (calls ++ vs) = r := by
  generalize hq : entered calls = q at h hv
  cases hv with
  | none =>
    rw [List.append_nil, hq]
    exact ⟨h, rfl⟩
  | one hv =>
    rw [entered_snoc, hq, hv.after_eq]
    exact ⟨h.snoc hv, rfl⟩

/-! ## The list of what is still to do -/

/-- Something to do: a piece of code, or a call. -/
inductive Duty (C E : Type*)
  | code (c : C)
  | call (v : Visit E)
  deriving DecidableEq, Repr

/-- The call of a duty. -/
def Duty.call? : Duty C E → Option (Visit E)
  | code _ => none
  | call v => some v

/-- No call is left to do. -/
def CallFree (todo : List (Duty C E)) : Prop := ∀ t ∈ todo, t.call? = none

/-- The calls `todo` **lead** from `q`, which is entered, to `current`, which will be; code that
`decides` on what is current finds that entered, with no call behind it. -/
inductive Leads (decides : C → Prop) (current : Option E) : Option E → List (Duty C E) → Prop
  | done : Leads decides current current []
  | call {v : Visit E} {q r : Option E} {todo : List (Duty C E)} :
      v.Moves q r → Leads decides current r todo → Leads decides current q (.call v :: todo)
  | pass {c : C} {q : Option E} {todo : List (Duty C E)} :
      ¬ decides c → Leads decides current q todo → Leads decides current q (.code c :: todo)
  | decide {c : C} {todo : List (Duty C E)} :
      decides c → CallFree todo → Leads decides current current (.code c :: todo)

variable {decides : C → Prop} {current q : Option E} {todo : List (Duty C E)} {c : C}

@[simp] theorem callFree_nil : CallFree ([] : List (Duty C E)) := by simp [CallFree]

@[simp] theorem callFree_code : CallFree (.code c :: todo) ↔ CallFree todo := by
  simp [CallFree, Duty.call?]

theorem CallFree.append {todo' : List (Duty C E)} (h : CallFree todo) (h' : CallFree todo') :
    CallFree (todo ++ todo') := by
  intro t ht
  exact (List.mem_append.mp ht).elim (h t) (h' t)

/-- With no call to do, what is current is entered. -/
theorem Leads.of_callFree (h : CallFree todo) : Leads decides current current todo := by
  induction todo with
  | nil => exact .done
  | cons t todo ih =>
    have hrest : CallFree todo := fun t' ht' => h t' (List.mem_cons_of_mem _ ht')
    cases t with
    | code c => exact (em (decides c)).elim (.decide · hrest) (.pass · (ih hrest))
    | call v => exact absurd (h _ (List.mem_cons_self ..)) (by simp [Duty.call?])

/-- Deciding code finds what is current entered, and no call behind it. -/
theorem Leads.decided (h : Leads decides current q (.code c :: todo)) (hc : decides c) :
    q = current ∧ CallFree todo := by
  cases h with
  | pass hn => exact absurd hc hn
  | decide _ hfree => exact ⟨rfl, hfree⟩

/-- Other code is passed over. -/
theorem Leads.passed (h : Leads decides current q (.code c :: todo)) (hc : ¬ decides c) :
    Leads decides current q todo := by
  cases h with
  | pass _ hrest => exact hrest
  | decide hd => exact absurd hd hc

/-- Where nothing is left to do, what is current is entered. -/
theorem Leads.eq_of_nil (h : Leads decides current q []) : q = current := by
  cases h
  rfl

/-- What is entered is left. -/
theorem Leads.leave (h : Leads decides current none todo) :
    Leads decides current q (q.toList.map (fun e => .call (.leave e)) ++ todo) := by
  cases q with
  | none => exact h
  | some e => exact .call (.leave e) h

/-- What is current is entered. -/
theorem Leads.enter (h : Leads decides current current todo) :
    Leads decides current none (current.toList.map (fun e => .call (.enter e)) ++ todo) := by
  cases current with
  | none => exact h
  | some e => exact .call (.enter e) h

/-- Calls aside change nothing. -/
theorem Leads.asides (es : List E) (h : Leads decides current none todo) :
    Leads decides current none (es.map (fun e => .call (.aside e)) ++ todo) := by
  induction es with
  | nil => exact h
  | cons e es ih => exact .call (.aside e) ih

end Machinery
