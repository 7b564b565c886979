import AxonVex.Ports.Signals
import Mathlib.Data.Int.Notation

/-!
# Ports/Publisher — the sync input of a publishing unit

    processSync   ▸ test hasNewData_ ▸ copy data_ ▸ clear hasNewData_ ▸ publish

Here the flag is cleared after the copy.  A write that is stored and announced in between loses its
announcement to that clear, and nothing else will publish it: the last write is published exactly
if the port still holds what was copied whenever the flag is cleared, or the later write has its
flag to set (`lastWrite_published`).
-/

namespace AxonVex

open Machinery

namespace Publisher

open Signals

variable {T : Type*}

/-- Where the unit stands in `processSync()`. -/
inductive PublishPc (T : Type*)
  | idle
  /-- the flag was set -/
  | tested
  /-- the datum is copied -/
  | fetched (d : T)
  /-- the flag is cleared -/
  | cleared (d : T)
  deriving DecidableEq

/-- A step of `processSync()`. -/
inductive PublishStep
  | hasNewData
  | read
  | clearNewDataFlag
  | publish
  deriving DecidableEq

/-- `processSync()`, step by step. -/
def processSync : PublishStep → Port T → PublishPc T → Option (Port T × PublishPc T)
  | .hasNewData, port, .idle => some (port, if port.flag then .tested else .idle)
  | .read, port, .tested => some (port, .fetched port.data)
  | .clearNewDataFlag, port, .fetched d => some ({ port with flag := false }, .cleared d)
  | .publish, port, .cleared _ => some (port, .idle)
  | _, _, _ => none

/-- The unit's step, by name. -/
theorem processSync_cases {b : PublishStep} {port port' : Port T} {pc pc' : PublishPc T}
    (hr : processSync b port pc = some (port', pc')) :
    (b = .hasNewData ∧ port' = port ∧ pc = .idle ∧ pc' = if port.flag then .tested else .idle) ∨
    (b = .read ∧ port' = port ∧ pc = .tested ∧ pc' = .fetched port.data) ∨
    (∃ d, b = .clearNewDataFlag ∧ port' = { port with flag := false } ∧ pc = .fetched d ∧
      pc' = .cleared d) ∨
    ∃ d, b = .publish ∧ port' = port ∧ pc = .cleared d ∧ pc' = .idle := by
  cases b <;> cases pc <;>
    simp only [processSync, Option.some.injEq, Prod.mk.injEq, reduceCtorEq] at hr
  · exact .inl ⟨rfl, hr.1.symm, rfl, hr.2.symm⟩
  · exact .inr (.inl ⟨rfl, hr.1.symm, rfl, hr.2.symm⟩)
  · exact .inr (.inr (.inl ⟨_, rfl, hr.1.symm, rfl, hr.2.symm⟩))
  · exact .inr (.inr (.inr ⟨_, rfl, hr.1.symm, rfl, hr.2.symm⟩))

/-- What has happened: the data the producer has stored, the number of the write that was copied
last, and the published values with the numbers of their writes. -/
structure History (T : Type*) where
  stores : List T := []
  fetched : ℕ := 0
  published : List (ℕ × T) := []

/-- A port with one producer, and the unit. -/
abbrev UnitState (T : Type*) := State T Unit (PublishPc T)

/-- The record of a step. -/
def record (s : UnitState T) (a : Label T Unit PublishStep) (_ : UnitState T) (h : History T) :
    History T where
  stores := storesAfter s a h.stores
  fetched :=
    match a with
    | .consume .read => h.stores.length
    | _ => h.fetched
  published :=
    match a, s.consumer with
    | .consume .publish, .cleared d => h.published ++ [(h.fetched, d)]
    | _, _ => h.published

/-- `PublisherUnit<T>` with a publish callback, and the producer of its sync input. -/
def unit (accepts : T → Bool) (zero : T) :
    Machine (UnitState T × History T) (Label T Unit PublishStep) :=
  (Signals.machine accepts processSync zero .idle).withHistory {} record

variable {accepts : T → Bool} {zero : T} {p q : UnitState T × History T}
  {a : Label T Unit PublishStep}

/-- The number of the last write. -/
def History.last (h : History T) : ℕ := h.stores.length

/-- The unit has copied a datum and not yet published it. -/
def PublishPc.holding : PublishPc T → Bool
  | .fetched _ => true
  | .cleared _ => true
  | _ => false

/-- The last write is published, its publication is under way, or the flag announces it. -/
def LastKept (p : UnitState T × History T) : Prop :=
  p.2.last ∈ p.2.published.map Prod.fst ∨ p.1.port.flag = true ∨
    p.1.consumer.holding = true ∧ p.2.fetched = p.2.last

/-- Once the last write has stored its datum and set the flag, it is kept. -/
def LastWrite (p : UnitState T × History T) : Prop :=
  p.2.stores ≠ [] → ¬ p.1.Pending → LastKept p

/-- When the flag is cleared, the port holds what was copied, or a write is about to set the flag
again. -/
def ClearsWhatItRead (p : UnitState T × History T) (a : Label T Unit PublishStep) : Prop :=
  a = .consume .clearNewDataFlag → p.2.fetched = p.2.last ∨ p.1.Pending

/-- The last write is kept or about to be announced, and nothing later than the copied write has been
published. -/
structure Inv (p : UnitState T × History T) : Prop where
  kept : p.2.stores ≠ [] → p.1.Pending ∨ LastKept p
  published : ∀ n ∈ p.2.published.map Prod.fst, n ≤ p.2.fetched
  fetched : p.2.fetched ≤ p.2.last

/-- A port that begins with the datum `zero`, and its unit. -/
def start (zero : T) : UnitState T × History T := (⟨{ data := zero }, fun _ => .idle, .idle⟩, {})

theorem inv_start : Inv (start zero) :=
  ⟨fun hne => absurd rfl hne, fun _ hn => absurd hn List.not_mem_nil, Nat.le_refl 0⟩

theorem steps_unit (hst : (unit accepts zero).step p a = some q) :
    Steps accepts processSync p.1 a q.1 ∧ q.2 = record p.1 a q.1 p.2 := by
  obtain ⟨hstep, hrecord⟩ := Machine.withHistory_step.mp hst
  exact ⟨steps hstep, hrecord.symm⟩

/-- A step of the producer. -/
theorem Inv.write (hp : Inv p) (hst : (unit accepts zero).step p a = some q)
    (ha : ∀ b, a ≠ .consume b) : Inv q := by
  obtain ⟨hsteps, hq⟩ := steps_unit hst
  have hfetched : q.2.fetched = p.2.fetched := by
    rw [hq]
    unfold record
    dsimp only
    split
    next b => exact absurd rfl (ha .read)
    · rfl
  have hpublished : q.2.published = p.2.published := by
    rw [hq]
    unfold record
    dsimp only
    split
    next b => exact absurd rfl (ha .publish)
    · rfl
  have hstores : q.2.stores = storesAfter p.1 a p.2.stores := by rw [hq]; rfl
  have hconsumer : q.1.consumer = p.1.consumer := hsteps.consumer_eq ha
  rcases hsteps.stores_cases p.2.stores with hsame | ⟨d, hmore, hpending⟩
  · have hlast : q.2.last = p.2.last := congrArg List.length (hstores.trans hsame)
    refine ⟨fun hne => ?_, by rw [hpublished, hfetched]; exact hp.published,
      by rw [hfetched, hlast]; exact hp.fetched⟩
    rw [hstores, hsame] at hne
    rcases hp.kept hne with hpending | hread | hflag | hholding
    · exact (announced_step hsteps ha (.inl hpending)).imp_right fun h => .inr (.inl h)
    · exact .inr (.inl (by rw [hpublished, hlast]; exact hread))
    · exact (announced_step hsteps ha (.inr hflag)).imp_right fun h => .inr (.inl h)
    · exact .inr (.inr (.inr (by rw [hconsumer, hfetched, hlast]; exact hholding)))
  · have hlast : q.2.last = p.2.last + 1 := by
      rw [History.last, hstores, hmore, List.length_append]
      rfl
    exact ⟨fun _ => .inl hpending, by rw [hpublished, hfetched]; exact hp.published,
      by rw [hfetched, hlast]; exact Nat.le_succ_of_le hp.fetched⟩

theorem Inv.step (hp : Inv p) (ha : ClearsWhatItRead p a)
    (hst : (unit accepts zero).step p a = some q) : Inv q := by
  cases a with
  | write w step => exact hp.write hst (by simp)
  | consume b =>
    obtain ⟨hsteps, hq⟩ := steps_unit hst
    obtain ⟨s', h'⟩ := q
    obtain rfl : h' = record p.1 (.consume b) s' p.2 := hq
    cases hsteps with
    | consume _ port' pc' hc =>
      obtain ⟨⟨port, writers, pc⟩, h⟩ := p
      dsimp only at hc
      rcases processSync_cases hc with ⟨rfl, rfl, rfl, rfl⟩ | ⟨rfl, rfl, rfl, rfl⟩ |
        ⟨d, rfl, rfl, rfl, rfl⟩ | ⟨d, rfl, rfl, rfl, rfl⟩
      · refine ⟨fun hne => ?_, hp.published, hp.fetched⟩
        rcases hp.kept hne with hpending | hread | hflag | ⟨hholding, -⟩
        · exact .inl hpending
        · exact .inr (.inl hread)
        · exact .inr (.inr (.inl hflag))
        · exact absurd hholding Bool.noConfusion
      · exact ⟨fun _ => .inr (.inr (.inr ⟨rfl, rfl⟩)),
          fun n hn => Nat.le_trans (hp.published n hn) hp.fetched, Nat.le_refl _⟩
      · refine ⟨fun hne => ?_, hp.published, hp.fetched⟩
        rcases ha rfl with hfetched | hpending
        · exact .inr (.inr (.inr ⟨rfl, hfetched⟩))
        · exact .inl hpending
      · have hmap : ((record ⟨port', writers, .cleared d⟩ (.consume .publish) ⟨port', writers, .idle⟩
            h).published).map Prod.fst = h.published.map Prod.fst ++ [h.fetched] := by
          simp [record]
        refine ⟨fun hne => ?_, fun n hn => ?_, hp.fetched⟩
        · rcases hp.kept hne with hpending | hread | hflag | ⟨-, hfetched⟩
          · exact .inl hpending
          · refine .inr (.inl ?_)
            rw [hmap]
            exact List.mem_append_left _ hread
          · exact .inr (.inr (.inl hflag))
          · refine .inr (.inl ?_)
            rw [hmap]
            exact List.mem_append_right _ (List.mem_singleton.mpr hfetched.symm)
        · rw [hmap, List.mem_append, List.mem_singleton] at hn
          rcases hn with hn | rfl
          · exact hp.published n hn
          · exact Nat.le_refl _

/-- A clear that takes the flag of a later write drops it. -/
theorem clearsWhatItRead_of_lastWrite (hp : Inv p)
    (hst : (unit accepts zero).step p a = some q) (hq : LastWrite q) : ClearsWhatItRead p a := by
  rintro rfl
  obtain ⟨hsteps, hq'⟩ := steps_unit hst
  obtain ⟨s', h'⟩ := q
  obtain rfl : h' = record p.1 (.consume .clearNewDataFlag) s' p.2 := hq'
  cases hsteps with
  | consume _ port' pc' hc =>
    obtain ⟨⟨port, writers, pc⟩, h⟩ := p
    dsimp only at hc
    rcases processSync_cases hc with ⟨hb, -⟩ | ⟨hb, -⟩ | ⟨d, -, rfl, rfl, rfl⟩ | ⟨d, hb, -⟩
    · exact absurd hb (by decide)
    · exact absurd hb (by decide)
    · by_contra hnot
      obtain ⟨hne, hquiet⟩ := not_or.mp hnot
      have hfetched : h.fetched < h.last := Nat.lt_of_le_of_ne hp.fetched hne
      have hstores : h.stores ≠ [] := by
        intro hnil
        rw [History.last, hnil] at hfetched
        exact absurd hfetched (Nat.not_lt_zero _)
      rcases hq hstores hquiet with hread | hflag | ⟨-, heq⟩
      · exact absurd (hp.published h.last hread) (Nat.not_le.mpr hfetched)
      · exact absurd hflag Bool.noConfusion
      · exact hne heq
    · exact absurd hb (by decide)

/-- **The last write is kept throughout a run exactly if** the flag is cleared only while the port
holds what was copied, or a write is about to set the flag again. -/
theorem lastWrite_published (accepts : T → Bool) (zero : T)
    (labels : List (Label T Unit PublishStep)) :
    (unit accepts zero).Always LastWrite (start zero) labels ↔
      (unit accepts zero).Allowed ClearsWhatItRead (start zero) labels := by
  refine Machine.always_iff_allowed_of_invariant (fun _ _ _ hs ha hst => Inv.step hs ha hst)
    (fun q hq hne hquiet => (hq.kept hne).resolve_left hquiet)
    (fun _ _ _ hs hst hq => clearsWhatItRead_of_lastWrite hs hst hq) inv_start labels

/-- The second write comes between the copy and the clear. -/
def between : List (Label ℤ Unit PublishStep) :=
  [.write () (.call 1), .write () .validate, .write () .store, .write () .raise, .write () .finish,
    .consume .hasNewData, .consume .read,
    .write () (.call 2), .write () .validate, .write () .store, .write () .raise,
    .write () .finish, .consume .clearNewDataFlag, .consume .publish]

/-- The second write is not announced, and only the first one is published. -/
theorem lastWrite_dropped :
    (unit (fun _ => true) (0 : ℤ)).init (start 0) ∧
      ∃ p, (unit (fun _ => true) (0 : ℤ)).exec (start 0) between = some p ∧
        p.2.published = [(1, 1)] ∧ p.2.stores = [1, 2] ∧ ¬ LastWrite p := by
  have hexec : ((unit (fun _ => true) (0 : ℤ)).exec (start 0) between).any
      (fun p => p.2.published = [(1, 1)] ∧ p.2.stores = [1, 2] ∧ p.1.port.flag = false ∧
        p.1.writers () = .idle ∧ p.1.consumer = .idle) = true := by decide +kernel
  obtain ⟨p, hp, hchecks⟩ := (Option.any_eq_true _ _).mp hexec
  obtain ⟨hpublished, hstores, hflag, hidle, hconsumer⟩ := of_decide_eq_true hchecks
  refine ⟨⟨rfl, rfl⟩, p, hp, hpublished, hstores, fun hlast => ?_⟩
  have hquiet : ¬ p.1.Pending := by
    rintro ⟨w, hw⟩
    rw [hidle] at hw
    exact absurd hw Bool.noConfusion
  rcases hlast (by rw [hstores]; exact List.cons_ne_nil 1 _) hquiet with hread | hflag' | ⟨hholds, -⟩
  · rw [hpublished, History.last, hstores] at hread
    exact absurd hread (by decide)
  · rw [hflag] at hflag'
    exact Bool.noConfusion hflag'
  · rw [hconsumer] at hholds
    exact absurd hholds Bool.noConfusion

end Publisher

end AxonVex
