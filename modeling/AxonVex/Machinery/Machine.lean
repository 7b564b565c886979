import Mathlib.Logic.Relation
import Mathlib.Data.Option.Basic

/-!
# Machinery/Machine — labelled machines, guarded runs, invariants

A **machine** has initial states and a partial step function: `step s a = some t` is the step
labelled `a`, and `step s a = none` says that `a` is not enabled in `s`.

A **guarded run** takes only steps that satisfy a condition `G` on the state before the step and the
label.  Two rules carry every result about runs:

* `ReachableUnder.invariant` — a property of the initial states that every guarded step keeps holds
  in every state a guarded run reaches.
* `always_iff_allowed` — when one step keeps a property *exactly* when `G` allows it, a whole run
  keeps the property exactly when `G` allows every step it takes.
-/

namespace Machinery

/-- What a step has returned, when two descriptions of it agree. -/
theorem pair_inj {α β : Type*} {a a' : α} {b b' : β} (h : some (a, b) = some (a', b')) :
    a = a' ∧ b = b' := Prod.mk.inj (Option.some.inj h)

/-- A guarded step that is taken. -/
theorem guarded {α : Type*} {c : Prop} [Decidable c] {a b : α}
    (h : (if c then some a else none) = some b) : c ∧ a = b :=
  (Option.ite_none_right_eq_some.mp h).imp_right Option.some.inj

/-- A labelled machine: its initial states and its partial step function. -/
structure Machine (σ α : Type*) where
  /-- the states a run may begin in -/
  init : σ → Prop
  /-- the step labelled `a`, where it is enabled -/
  step : σ → α → Option σ

namespace Machine

variable {σ α : Type*} {M : Machine σ α} {G H : σ → α → Prop} {I P Q : σ → Prop}

/-! ## Reachability -/

/-- **Reachable under a guard**: the states of the runs that begin in an initial state and whose
steps all satisfy `G`. -/
inductive ReachableUnder (M : Machine σ α) (G : σ → α → Prop) : σ → Prop
  | init {s : σ} : M.init s → ReachableUnder M G s
  | step {s t : σ} (a : α) :
      ReachableUnder M G s → G s a → M.step s a = some t → ReachableUnder M G t

/-- Reachable by any run. -/
abbrev Reachable (M : Machine σ α) : σ → Prop := M.ReachableUnder fun _ _ => True

/-- `I` holds initially and every step that `G` allows keeps it. -/
structure Inductive (M : Machine σ α) (G : σ → α → Prop) (I : σ → Prop) : Prop where
  init : ∀ s, M.init s → I s
  step : ∀ s a t, I s → G s a → M.step s a = some t → I t

/-- **The invariant rule.** -/
theorem ReachableUnder.invariant (hI : M.Inductive G I) {s : σ} (h : M.ReachableUnder G s) :
    I s := by
  induction h with
  | init h => exact hI.init _ h
  | step a _ hG hstep ih => exact hI.step _ a _ ih hG hstep

/-- A stronger guard reaches fewer states. -/
theorem ReachableUnder.mono (hGH : ∀ s a, G s a → H s a) {s : σ} (h : M.ReachableUnder G s) :
    M.ReachableUnder H s := by
  induction h with
  | init h => exact .init h
  | step a _ hG hstep ih => exact .step a ih (hGH _ a hG) hstep

/-- A second invariant may use the first. -/
theorem Inductive.and (hI : M.Inductive G I) (h0 : ∀ s, M.init s → P s)
    (hstep : ∀ s a t, I s → P s → G s a → M.step s a = some t → P t) :
    M.Inductive G fun s => I s ∧ P s where
  init s hs := ⟨hI.init s hs, h0 s hs⟩
  step s a t h hG hst := ⟨hI.step s a t h.1 hG hst, hstep s a t h.1 h.2 hG hst⟩

/-! ## Runs along a list of labels -/

/-- The state a list of labels leads to, if every step of it is enabled. -/
def exec (M : Machine σ α) (s : σ) : List α → Option σ
  | [] => some s
  | a :: as => (M.step s a).bind fun t => M.exec t as

@[simp] theorem exec_nil (s : σ) : M.exec s [] = some s := rfl

@[simp] theorem exec_cons (s : σ) (a : α) (as : List α) :
    M.exec s (a :: as) = (M.step s a).bind fun t => M.exec t as := rfl

theorem exec_append (s : σ) (as bs : List α) :
    M.exec s (as ++ bs) = (M.exec s as).bind fun t => M.exec t bs := by
  induction as generalizing s with
  | nil => rfl
  | cons a as ih =>
    rw [List.cons_append, exec_cons, exec_cons, Option.bind_assoc]
    exact congrArg _ (funext ih)

/-- An executed list of labels is a run. -/
theorem Reachable.exec {s t : σ} {as : List α} (hs : M.Reachable s) (h : M.exec s as = some t) :
    M.Reachable t := by
  induction as generalizing s with
  | nil => exact Option.some.inj h ▸ hs
  | cons a as ih =>
    obtain ⟨u, hu, hrest⟩ := Option.bind_eq_some_iff.mp h
    exact ih (.step a hs trivial hu) hrest

/-- `P` holds in every state the labels lead through. -/
def Always (M : Machine σ α) (P : σ → Prop) : σ → List α → Prop
  | s, [] => P s
  | s, a :: as => P s ∧ ∀ t, M.step s a = some t → M.Always P t as

/-- `G` allows every step the labels take. -/
def Allowed (M : Machine σ α) (G : σ → α → Prop) : σ → List α → Prop
  | _, [] => True
  | s, a :: as => ∀ t, M.step s a = some t → G s a ∧ M.Allowed G t as

theorem Always.head {s : σ} {as : List α} (h : M.Always P s as) : P s := by
  cases as with
  | nil => exact h
  | cons a as => exact h.1

/-- It holds where the labels lead. -/
theorem Always.exec {s t : σ} {as : List α} (h : M.Always P s as) (ht : M.exec s as = some t) :
    P t := by
  induction as generalizing s with
  | nil => exact Option.some.inj ht ▸ h
  | cons a as ih =>
    obtain ⟨u, hu, hrest⟩ := Option.bind_eq_some_iff.mp ht
    exact ih (h.2 u hu) hrest

/-- A weaker condition allows more runs. -/
theorem Allowed.mono (hGH : ∀ s a, G s a → H s a) {s : σ} {as : List α}
    (h : M.Allowed G s as) : M.Allowed H s as := by
  induction as generalizing s with
  | nil => trivial
  | cons a as ih => exact fun t ht => ⟨hGH s a (h t ht).1, ih (h t ht).2⟩

/-- **Exactness.**  If, from the states of `I`, one step keeps `P` exactly when `G` allows it, then
a run from a state of `I` and `P` keeps `P` exactly when `G` allows each of its steps. -/
theorem always_iff_allowed (hI : ∀ s a t, I s → P s → M.step s a = some t → I t)
    (hexact : ∀ s a t, I s → P s → M.step s a = some t → (P t ↔ G s a))
    {s : σ} (hs : I s) (hP : P s) (as : List α) : M.Always P s as ↔ M.Allowed G s as := by
  induction as generalizing s with
  | nil => exact ⟨fun _ => trivial, fun _ => hP⟩
  | cons a as ih =>
    constructor
    · rintro ⟨-, hall⟩ t ht
      have hPt : P t := (hall t ht).head
      exact ⟨(hexact s a t hs hP ht).mp hPt, (ih (hI s a t hs hP ht) hPt).mp (hall t ht)⟩
    · refine fun hall => ⟨hP, fun t ht => ?_⟩
      obtain ⟨hG, hrest⟩ := hall t ht
      have hPt : P t := (hexact s a t hs hP ht).mpr hG
      exact (ih (hI s a t hs hP ht) hPt).mpr hrest

/-- **Exactness over an invariant.**  `G` keeps an invariant that implies `P`, and a step that `G`
does not allow ends `P`: then a run keeps `P` exactly when `G` allows each of its steps. -/
theorem always_iff_allowed_of_invariant
    (hI : ∀ s a t, I s → G s a → M.step s a = some t → I t) (hIP : ∀ s, I s → P s)
    (hbad : ∀ s a t, I s → M.step s a = some t → P t → G s a)
    {s : σ} (hs : I s) (as : List α) : M.Always P s as ↔ M.Allowed G s as := by
  induction as generalizing s with
  | nil => exact ⟨fun _ => trivial, fun _ => hIP s hs⟩
  | cons a as ih =>
    constructor
    · rintro ⟨-, hall⟩ t ht
      have hG : G s a := hbad s a t hs ht (hall t ht).head
      exact ⟨hG, (ih (hI s a t hs hG ht)).mp (hall t ht)⟩
    · refine fun hall => ⟨hIP s hs, fun t ht => ?_⟩
      obtain ⟨hG, hrest⟩ := hall t ht
      exact (ih (hI s a t hs hG ht)).mpr hrest

/-- What `G` and an invariant that it keeps imply of each step is allowed along a run that `G`
allows. -/
theorem Allowed.of_invariant (hI : ∀ s a t, I s → G s a → M.step s a = some t → I t)
    (hH : ∀ s a, I s → G s a → H s a) {s : σ} {as : List α} (hs : I s) (h : M.Allowed G s as) :
    M.Allowed H s as := by
  induction as generalizing s with
  | nil => trivial
  | cons a as ih =>
    intro t ht
    obtain ⟨hG, hrest⟩ := h t ht
    exact ⟨hH s a hs hG, ih (hI s a t hs hG ht) hrest⟩

/-- **What `G` keeps holds along a run that `G` allows.** -/
theorem Allowed.always (hI : ∀ s a t, I s → G s a → M.step s a = some t → I t) {s : σ} {as : List α}
    (hs : I s) (h : M.Allowed G s as) : M.Always I s as := by
  induction as generalizing s with
  | nil => exact hs
  | cons a as ih => exact ⟨hs, fun t ht => ih (hI s a t hs (h t ht).1 ht) (h t ht).2⟩

/-- Where `P` holds throughout, every condition that follows from it allows the run. -/
theorem Always.allowed (hI : ∀ s a t, I s → P s → M.step s a = some t → I t)
    (hG : ∀ s a, I s → P s → G s a) {s : σ} {as : List α} (hs : I s) (h : M.Always P s as) :
    M.Allowed G s as := by
  induction as generalizing s with
  | nil => trivial
  | cons a as ih => exact fun t ht => ⟨hG s a hs h.1, ih (hI s a t hs h.1 ht) (h.2 t ht)⟩

/-- A list of labels that a guard allows is a guarded run. -/
theorem ReachableUnder.exec {s t : σ} {as : List α} (hs : M.ReachableUnder G s)
    (hG : M.Allowed G s as) (h : M.exec s as = some t) : M.ReachableUnder G t := by
  induction as generalizing s with
  | nil => exact Option.some.inj h ▸ hs
  | cons a as ih =>
    obtain ⟨u, hu, hrest⟩ := Option.bind_eq_some_iff.mp h
    exact ih (.step a hs (hG u hu).1 hu) (hG u hu).2 hrest

/-- What `G` keeps holds where a run that `G` allows ends. -/
theorem Allowed.exec_invariant (hI : ∀ s a t, I s → G s a → M.step s a = some t → I t) {s t : σ}
    {as : List α} (hs : I s) (hG : M.Allowed G s as) (h : M.exec s as = some t) : I t := by
  induction as generalizing s with
  | nil => exact Option.some.inj h ▸ hs
  | cons a as ih =>
    obtain ⟨u, hu, hrest⟩ := Option.bind_eq_some_iff.mp h
    exact ih (hI s a u hs (hG u hu).1 hu) (hG u hu).2 hrest

/-- Whether the computable condition `g` allows every step the labels take. -/
def checks (M : Machine σ α) (g : σ → α → Bool) : σ → List α → Bool
  | _, [] => true
  | s, a :: as => (M.step s a).all fun t => g s a && M.checks g t as

/-- A run that a computable condition allows is allowed by every weaker one. -/
theorem allowed_of_checks {g : σ → α → Bool} (hg : ∀ s a, g s a = true → G s a) {s : σ}
    {as : List α} (h : M.checks g s as = true) : M.Allowed G s as := by
  induction as generalizing s with
  | nil => trivial
  | cons a as ih =>
    intro t ht
    rw [checks, ht, Option.all_some, Bool.and_eq_true] at h
    exact ⟨hg s a h.1, ih h.2⟩

/-! ## History

A machine may carry a record of its run along; the record enables and changes no step. -/

variable {η : Type*}

/-- The machine with a record of its run, which begins as `h₀`. -/
def withHistory (M : Machine σ α) (h₀ : η) (record : σ → α → σ → η → η) : Machine (σ × η) α where
  init p := M.init p.1 ∧ p.2 = h₀
  step p a := (M.step p.1 a).map fun t => (t, record p.1 a t p.2)

theorem withHistory_step {h₀ : η} {record : σ → α → σ → η → η} {p q : σ × η} {a : α} :
    (M.withHistory h₀ record).step p a = some q ↔
      M.step p.1 a = some q.1 ∧ record p.1 a q.1 p.2 = q.2 := by
  simp only [withHistory, Option.map_eq_some_iff]
  constructor
  · rintro ⟨t, ht, rfl⟩
    exact ⟨ht, rfl⟩
  · rintro ⟨ht, hq⟩
    exact ⟨q.1, ht, Prod.ext rfl hq⟩

end Machine

end Machinery
