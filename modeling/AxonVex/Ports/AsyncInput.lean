import AxonVex.Ports.Signals
import Mathlib.Data.Int.Notation

/-!
# Ports/AsyncInput — updates and the reads of one consumer

    update  ▸ … ▸ store data_ ▸ set wasUpdated_ ▸ …
    read    ▸ test wasUpdated_ ▸ clear it ▸ copy data_

The reader clears the flag before it copies the datum, so no update is lost: an update whose flag
has been cleared is copied by the read that cleared it, or a later one has replaced it
(`lastUpdate_not_lost`).  The price is a second read.  A read that copies while the flag is set
again, or while some update still has its flag to set, leaves the flag to announce a datum that has
been read (`readsOnce`).
-/

namespace AxonVex

open Machinery

namespace AsyncInput

open Signals

variable {T : Type*}

/-- Where the consumer stands in `read()`. -/
inductive ReadPc
  | idle
  /-- the flag was set -/
  | tested
  /-- the flag is cleared -/
  | cleared
  deriving DecidableEq

/-- A step of the consumer: a call of `wasUpdated()`, or a step of `read()`. -/
inductive ReadStep
  | wasUpdated
  | test
  | clear
  | copy
  deriving DecidableEq

/-- `wasUpdated()`, and `read()` step by step; a test of a flag that is not set throws. -/
def read : ReadStep → Port T → ReadPc → Option (Port T × ReadPc)
  | .wasUpdated, port, .idle => some (port, .idle)
  | .test, port, .idle => some (port, if port.flag then .tested else .idle)
  | .clear, port, .tested => some ({ port with flag := false }, .cleared)
  | .copy, port, .cleared => some (port, .idle)
  | _, _, _ => none

theorem onlyClears_read : OnlyClears (read (T := T)) := by
  rintro a port c r hr
  cases a <;> cases c <;> simp only [read, Option.some.injEq, reduceCtorEq] at hr
  all_goals
    subst hr
    simp

/-- What has happened: the data that updates have stored, and the completed reads, each with the
number of the update it has read and the value it has returned. -/
structure History (T : Type*) where
  stores : List T := []
  reads : List (ℕ × T) := []

/-- A port with any number of updating threads and one consumer. -/
abbrev PortState (T : Type*) := State T ℕ ReadPc

/-- The record of a step. -/
def record (s : PortState T) (a : Label T ℕ ReadStep) (_ : PortState T) (h : History T) :
    History T where
  stores := storesAfter s a h.stores
  reads :=
    match a with
    | .consume .copy => h.reads ++ [(h.stores.length, s.port.data)]
    | _ => h.reads

/-- `AsyncInputPort<T>`, constructed with `threadSafe`, and never reset. -/
def port (accepts : T → Bool) (zero : T) : Machine (PortState T × History T) (Label T ℕ ReadStep) :=
  (Signals.machine accepts read zero .idle).withHistory {} record

variable {accepts : T → Bool} {zero : T} {s t : PortState T} {h : History T}
  {p q : PortState T × History T} {a : Label T ℕ ReadStep}

/-- The number of the update that is in the port, behind the ones before it. -/
def History.last (h : History T) : ℕ := h.stores.length

/-- Only a read adds to the reads. -/
theorem reads_record (ha : a ≠ .consume .copy) : (record s a t h).reads = h.reads := by
  unfold record
  split
  · exact absurd rfl ha
  · rfl

theorem steps_port (hst : (port accepts zero).step p a = some q) :
    Steps accepts read p.1 a q.1 ∧ q.2 = record p.1 a q.1 p.2 := by
  obtain ⟨hstep, hrecord⟩ := Machine.withHistory_step.mp hst
  exact ⟨steps hstep, hrecord.symm⟩

/-- The consumer's step, by name. -/
theorem read_cases {b : ReadStep} {port' : Port T} {pc : ReadPc}
    (hr : read b s.port s.consumer = some (port', pc)) :
    (b = .wasUpdated ∧ port' = s.port ∧ s.consumer = .idle ∧ pc = .idle) ∨
    (b = .test ∧ port' = s.port ∧ s.consumer = .idle ∧
      pc = if s.port.flag then .tested else .idle) ∨
    (b = .clear ∧ port' = { s.port with flag := false } ∧ s.consumer = .tested ∧ pc = .cleared) ∨
    (b = .copy ∧ port' = s.port ∧ s.consumer = .cleared ∧ pc = .idle) := by
  cases b <;> cases hc : s.consumer <;>
    simp only [hc, read, Option.some.injEq, Prod.mk.injEq, reduceCtorEq] at hr
  · exact .inl ⟨rfl, hr.1.symm, rfl, hr.2.symm⟩
  · exact .inr (.inl ⟨rfl, hr.1.symm, rfl, hr.2.symm⟩)
  · exact .inr (.inr (.inl ⟨rfl, hr.1.symm, rfl, hr.2.symm⟩))
  · exact .inr (.inr (.inr ⟨rfl, hr.1.symm, rfl, hr.2.symm⟩))

/-! ## What a read returns -/

/-- What holds throughout a run: a read past its test has an update to read, every completed read
has returned what the update of its number stored, and the last update is announced or read. -/
structure Sound (accepts : T → Bool) (zero : T) (p : PortState T × History T) : Prop where
  holds : Holds accepts zero p.1 p.2.stores
  reading : p.1.consumer ≠ .idle → p.2.stores ≠ []
  read (n : ℕ) (d : T) : (n, d) ∈ p.2.reads → 1 ≤ n ∧ p.2.stores[n - 1]? = some d
  announced : p.2.stores ≠ [] → (p.1.Pending ∨ p.1.port.flag = true) ∨ p.1.consumer = .cleared ∨
    p.2.last ∈ p.2.reads.map Prod.fst

theorem sound_init (hp : (port accepts zero).init p) : Sound accepts zero p := by
  obtain ⟨⟨port, writers, consumer⟩, h⟩ := p
  obtain ⟨hs, hh⟩ := hp
  obtain ⟨rfl, rfl, rfl⟩ := State.mk.inj hs
  obtain rfl : h = {} := hh
  exact ⟨holds_init, fun hne => absurd rfl hne, fun n d hr => absurd hr List.not_mem_nil,
    fun hne => absurd rfl hne⟩

/-- Updates are numbered once for all. -/
theorem getElem?_storesAfter (hst : Steps accepts read s a t) {n : ℕ} {d : T} {stores : List T}
    (hn : stores[n]? = some d) : (storesAfter s a stores)[n]? = some d := by
  rcases hst.stores_cases stores with hsame | ⟨e, hmore, -⟩
  · rw [hsame, hn]
  · rw [hmore, List.getElem?_append_left (List.getElem?_eq_some_iff.mp hn).1, hn]

/-- The datum of the port is that of the last update. -/
theorem Sound.data (hp : Sound accepts zero p) (hne : p.2.stores ≠ []) :
    1 ≤ p.2.last ∧ p.2.stores[p.2.last - 1]? = some p.1.port.data := by
  refine ⟨List.length_pos_iff.mpr hne, ?_⟩
  obtain ⟨d, hd⟩ := Option.ne_none_iff_exists'.mp (mt List.getLast?_eq_none_iff.mp hne)
  rw [hp.holds.data, hd, History.last, ← List.getLast?_eq_getElem?, hd]
  rfl

theorem Sound.le_last (hp : Sound accepts zero p) {n : ℕ} (hn : n ∈ p.2.reads.map Prod.fst) :
    n ≤ p.2.last := by
  obtain ⟨⟨m, d⟩, hr, rfl⟩ := List.mem_map.mp hn
  obtain ⟨hpos, hd⟩ := hp.read m d hr
  have hlt : m - 1 < p.2.stores.length := (List.getElem?_eq_some_iff.mp hd).1
  change m ≤ p.2.stores.length
  omega

/-- A step of a writer. -/
theorem Sound.write (hp : Sound accepts zero p) (hst : (port accepts zero).step p a = some q)
    (ha : ∀ b, a ≠ .consume b) : Sound accepts zero q := by
  obtain ⟨hsteps, hq⟩ := steps_port hst
  have hreads : q.2.reads = p.2.reads := by
    rw [hq]
    exact reads_record (ha .copy)
  have hstores : q.2.stores = storesAfter p.1 a p.2.stores := by rw [hq]; rfl
  have hconsumer : q.1.consumer = p.1.consumer := hsteps.consumer_eq ha
  refine ⟨?_, fun hne => ?_, fun n d hr => ?_, fun hne => ?_⟩
  · rw [hstores]
    exact hp.holds.step onlyClears_read hsteps
  · obtain ⟨d, hd⟩ := List.exists_mem_of_ne_nil _ (hp.reading (hconsumer ▸ hne))
    obtain ⟨n, hn⟩ := List.mem_iff_getElem?.mp hd
    rw [hstores]
    exact List.ne_nil_of_mem (List.mem_iff_getElem?.mpr ⟨n, getElem?_storesAfter hsteps hn⟩)
  · rw [hreads] at hr
    obtain ⟨hpos, hd⟩ := hp.read n d hr
    rw [hstores]
    exact ⟨hpos, getElem?_storesAfter hsteps hd⟩
  · rcases hsteps.stores_cases p.2.stores with hsame | ⟨d, -, hpending⟩
    · rw [← hstores] at hsame
      rcases hp.announced (hsame ▸ hne) with hann | hcleared | hread
      · exact .inl (announced_step hsteps ha hann)
      · exact .inr (.inl (hconsumer.trans hcleared))
      · refine .inr (.inr ?_)
        rwa [hreads, History.last, hsame]
    · exact .inl (.inl hpending)

/-- The record of a consumer's step. -/
theorem history_consume {b : ReadStep} (hq : q.2 = record p.1 (.consume b) q.1 p.2) :
    q.2.stores = p.2.stores ∧
      q.2.reads = if b = .copy then p.2.reads ++ [(p.2.last, p.1.port.data)] else p.2.reads := by
  rw [hq]
  cases b <;> exact ⟨rfl, rfl⟩

theorem Sound.step (hp : Sound accepts zero p) (hst : (port accepts zero).step p a = some q) :
    Sound accepts zero q := by
  cases a with
  | write w step => exact hp.write hst (by simp)
  | consume b =>
    obtain ⟨hsteps, hq⟩ := steps_port hst
    obtain ⟨hstores, hreads⟩ := history_consume hq
    have hholds : Holds accepts zero q.1 q.2.stores := by
      rw [hstores]
      exact hp.holds.step onlyClears_read hsteps
    obtain ⟨s', h'⟩ := q
    dsimp only at hstores hreads hholds
    have hlast : h'.last = p.2.last := congrArg List.length hstores
    cases hsteps with
    | consume _ port' pc hc =>
      rcases read_cases hc with ⟨rfl, rfl, hidle, rfl⟩ | ⟨rfl, rfl, hidle, rfl⟩ |
          ⟨rfl, rfl, htested, rfl⟩ | ⟨rfl, rfl, hcleared, rfl⟩
      · refine ⟨hholds, fun hne => absurd rfl hne, ?_, fun hne => ?_⟩
        · simpa [hreads, hstores] using hp.read
        · rcases hp.announced (hstores ▸ hne) with hann | hcleared | hread
          · exact .inl hann
          · rw [hidle] at hcleared
            exact absurd hcleared (by decide)
          · exact .inr (.inr (by simpa [hreads, hlast] using hread))
      · refine ⟨hholds, fun hne => ?_, ?_, fun hne => ?_⟩
        · have hflag : p.1.port.flag = true := by
            by_contra hf
            exact hne (if_neg hf)
          rw [hstores]
          exact hp.holds.flag hflag
        · simpa [hreads, hstores] using hp.read
        · rcases hp.announced (hstores ▸ hne) with hann | hcleared | hread
          · exact .inl hann
          · rw [hidle] at hcleared
            exact absurd hcleared (by decide)
          · exact .inr (.inr (by simpa [hreads, hlast] using hread))
      · refine ⟨hholds, fun _ => ?_, ?_, fun _ => .inr (.inl rfl)⟩
        · rw [hstores]
          exact hp.reading (by rw [htested]; decide)
        · simpa [hreads, hstores] using hp.read
      · have hne : p.2.stores ≠ [] := hp.reading (by rw [hcleared]; decide)
        refine ⟨hholds, fun h => absurd rfl h, fun n d hr => ?_, fun _ => .inr (.inr ?_)⟩
        · rw [hreads, if_pos rfl, List.mem_append, List.mem_singleton] at hr
          rw [hstores]
          rcases hr with hr | hr
          · exact hp.read n d hr
          · obtain ⟨rfl, rfl⟩ := Prod.mk.inj hr
            exact hp.data hne
        · rw [hreads, hlast]
          simp

theorem sound_of_reachable (hp : (port accepts zero).Reachable p) : Sound accepts zero p :=
  hp.invariant ⟨fun _ => sound_init, fun _ _ _ hs _ hst => hs.step hst⟩

/-! ## The next read -/

/-- What is left of a read, or a read from its test. -/
def readFrom : ReadPc → List ReadStep
  | .idle => [.test, .clear, .copy]
  | .tested => [.clear, .copy]
  | .cleared => [.copy]

/-- The consumer's next read, without an update in between, returns the last one's value. -/
def NextReadReturns (accepts : T → Bool) (zero : T) (p : PortState T × History T) (d : T) : Prop :=
  ∃ q, (port accepts zero).exec p ((readFrom p.1.consumer).map .consume) = some q ∧
    q.2.reads = p.2.reads ++ [(p.2.last, d)]

theorem nextReadReturns (hflag : p.1.port.flag = true ∨ p.1.consumer ≠ .idle) :
    NextReadReturns accepts zero p p.1.port.data := by
  obtain ⟨⟨⟨data, flag, total, valid, invalid⟩, writers, consumer⟩, h⟩ := p
  cases consumer with
  | idle =>
    obtain rfl : flag = true := by simpa using hflag
    exact ⟨_, rfl, rfl⟩
  | tested => exact ⟨_, rfl, rfl⟩
  | cleared => exact ⟨_, rfl, rfl⟩

/-- No update is lost: every read has returned what some update stored, and once every update has
returned, the last one has been read, or the read that has cleared its flag, or the next one, returns
its value. -/
structure KeepsLast (accepts : T → Bool) (zero : T) (p : PortState T × History T) : Prop where
  stored (n : ℕ) (d : T) : (n, d) ∈ p.2.reads → d ∈ p.2.stores ∧ accepts d = true
  last (d : T) : (∀ w, p.1.writers w = .idle) → p.2.stores.getLast? = some d →
    (p.2.last, d) ∈ p.2.reads ∨
      (p.1.consumer = .cleared ∨ p.1.port.flag = true) ∧ NextReadReturns accepts zero p d

/-- **The last update is never lost, and no other value is ever read.** -/
theorem lastUpdate_not_lost (accepts : T → Bool) (zero : T) (p : PortState T × History T)
    (hp : (port accepts zero).Reachable p) : KeepsLast accepts zero p := by
  have hsound := sound_of_reachable hp
  refine ⟨fun n d hr => ?_, fun d hidle hd => ?_⟩
  · have hmem : d ∈ p.2.stores := List.mem_iff_getElem?.mpr ⟨n - 1, (hsound.read n d hr).2⟩
    exact ⟨hmem, hsound.holds.accepted d hmem⟩
  · have hne : p.2.stores ≠ [] := by
      rintro hnil
      rw [hnil] at hd
      exact absurd hd (by simp)
    have hdata : p.1.port.data = d := by rw [hsound.holds.data, hd, Option.getD_some]
    have hnext (hannounced : p.1.consumer = .cleared ∨ p.1.port.flag = true) :
        NextReadReturns accepts zero p d := by
      rw [← hdata]
      exact nextReadReturns (hannounced.symm.imp_right fun hc => by rw [hc]; decide)
    rcases hsound.announced hne with (⟨w, hw⟩ | hflag) | hcleared | hread
    · rw [hidle w] at hw
      exact absurd hw (by simp [WritePc.pending])
    · exact .inr ⟨.inr hflag, hnext (.inr hflag)⟩
    · exact .inr ⟨.inl hcleared, hnext (.inl hcleared)⟩
    · -- the read of that number returned what its update stored
      obtain ⟨⟨n, e⟩, hr, rfl⟩ := List.mem_map.mp hread
      have he : p.2.stores[p.2.last - 1]? = some e := (hsound.read _ e hr).2
      rw [(hsound.data hne).2, hdata] at he
      obtain rfl := Option.some.inj he
      exact .inl hr

/-! ## The same update again -/

/-- A read copies only while the flag is cleared and no update has its flag to set. -/
def Settled (p : PortState T × History T) (a : Label T ℕ ReadStep) : Prop :=
  a = .consume .copy → p.1.port.flag = false ∧ ¬ p.1.Pending

/-- Every update has been read at most once. -/
def ReadOnce (p : PortState T × History T) : Prop := (p.2.reads.map Prod.fst).Nodup

/-- What settled reads keep: an update that has been read is not announced again. -/
structure Once (accepts : T → Bool) (zero : T) (p : PortState T × History T) : Prop where
  sound : Sound accepts zero p
  once : ReadOnce p
  quiet : p.2.last ∈ p.2.reads.map Prod.fst →
    p.1.port.flag = false ∧ ¬ p.1.Pending ∧ p.1.consumer = .idle

/-- A writer that has nothing to announce leaves the port quiet. -/
theorem quiet_step (hst : Steps accepts read s a t) (ha : ∀ b, a ≠ .consume b)
    (hsame : storesAfter s a h.stores = h.stores) (hflag : s.port.flag = false)
    (hquiet : ¬ s.Pending) : t.port.flag = false ∧ ¬ t.Pending := by
  have hother {port : Port T} {c : ReadPc} {w : ℕ} {pc : WritePc T} (hpc : pc.pending = false) :
      ¬ State.Pending ⟨port, Function.update s.writers w pc, c⟩ := by
    rintro ⟨v, hv⟩
    by_cases hvw : v = w
    · subst hvw
      simp [hpc] at hv
    · exact hquiet ⟨v, by simpa [hvw] using hv⟩
  cases hst with
  | store w d hw =>
    have hlength := congrArg List.length hsame
    simp [storesAfter, hw] at hlength
  | raise w d hw => exact absurd ⟨w, by rw [hw]; rfl⟩ hquiet
  | consume b port c hc => exact absurd rfl (ha b)
  | _ => exact ⟨hflag, hother rfl⟩

theorem Once.step (hp : Once accepts zero p) (ha : Settled p a)
    (hst : (port accepts zero).step p a = some q) : Once accepts zero q := by
  have hsound := hp.sound.step hst
  obtain ⟨hsteps, hq⟩ := steps_port hst
  cases a with
  | write w step =>
    have hreads : q.2.reads = p.2.reads := by
      rw [hq]
      exact reads_record (by simp)
    refine ⟨hsound, by rw [ReadOnce, hreads]; exact hp.once, fun hlast => ?_⟩
    have hstores : q.2.stores = storesAfter (A := ReadStep) p.1 (.write w step) p.2.stores := by
      rw [hq]
      rfl
    rcases hsteps.stores_cases p.2.stores with hsame | ⟨d, hmore, -⟩
    · have hlast' : q.2.last = p.2.last := congrArg List.length (hstores.trans hsame)
      rw [hreads, hlast'] at hlast
      obtain ⟨hflag, hquiet, hidle⟩ := hp.quiet hlast
      obtain ⟨hflag', hquiet'⟩ := quiet_step hsteps (by simp) hsame hflag hquiet
      exact ⟨hflag', hquiet', (hsteps.consumer_eq (by simp)).trans hidle⟩
    · -- a new update has not been read
      have hle := hp.sound.le_last (hreads ▸ hlast)
      have hlast' : q.2.last = p.2.last + 1 := by
        rw [History.last, hstores, hmore, List.length_append]
        rfl
      omega
  | consume b =>
    obtain ⟨hstores, hreads⟩ := history_consume hq
    have hlast : q.2.last = p.2.last := congrArg List.length hstores
    obtain ⟨s', h'⟩ := q
    dsimp only at hstores hreads hlast
    cases hsteps with
    | consume _ port' pc hc =>
      by_cases hcopy : b = .copy
      · subst hcopy
        obtain ⟨hflag, hquiet⟩ := ha rfl
        rcases read_cases hc with ⟨hb, -⟩ | ⟨hb, -⟩ | ⟨hb, -⟩ | ⟨-, rfl, hcleared, rfl⟩
        · exact absurd hb (by decide)
        · exact absurd hb (by decide)
        · exact absurd hb (by decide)
        · refine ⟨hsound, ?_, fun _ => ⟨hflag, hquiet, rfl⟩⟩
          have hnew : p.2.last ∉ p.2.reads.map Prod.fst := by
            intro hmem
            rw [(hp.quiet hmem).2.2] at hcleared
            exact absurd hcleared (by decide)
          rw [ReadOnce, hreads, if_pos rfl, List.map_append, List.map_singleton]
          refine List.nodup_append.mpr ⟨hp.once, by simp, fun n hn m hm heq => hnew ?_⟩
          obtain rfl : m = p.2.last := List.mem_singleton.mp hm
          exact heq ▸ hn
      · rw [if_neg hcopy] at hreads
        refine ⟨hsound, by rw [ReadOnce, hreads]; exact hp.once, fun hmem => ?_⟩
        rw [hreads, hlast] at hmem
        obtain ⟨hflag, hquiet, hidle⟩ := hp.quiet hmem
        rcases read_cases hc with ⟨-, rfl, -, rfl⟩ | ⟨-, rfl, -, rfl⟩ | ⟨-, -, htested, -⟩ |
          ⟨-, -, hcleared, -⟩
        · exact ⟨hflag, hquiet, rfl⟩
        · exact ⟨hflag, hquiet, if_neg (by rw [hflag]; exact Bool.noConfusion)⟩
        · rw [hidle] at htested
          exact absurd htested (by decide)
        · rw [hidle] at hcleared
          exact absurd hcleared (by decide)

/-- A copy that is not settled leaves its update announced. -/
theorem exists_second_read (hcleared : p.1.consumer = .cleared)
    (hnot : ¬ (p.1.port.flag = false ∧ ¬ p.1.Pending)) :
    ∃ labels q, (port accepts zero).exec p (.consume .copy :: labels) = some q ∧ ¬ ReadOnce q := by
  obtain ⟨⟨⟨data, flag, total, valid, invalid⟩, writers, consumer⟩, h⟩ := p
  obtain rfl : consumer = .cleared := hcleared
  have htwice (q : PortState T × History T)
      (hreads : q.2.reads = h.reads ++ [(h.last, data)] ++ [(h.last, data)]) : ¬ ReadOnce q := by
    rw [ReadOnce, hreads]
    simp [List.nodup_append]
  let again : List (Label T ℕ ReadStep) := [.consume .test, .consume .clear, .consume .copy]
  cases flag with
  | true => exact ⟨again, _, rfl, htwice _ rfl⟩
  | false =>
    have hpending : State.Pending (⟨⟨data, false, total, valid, invalid⟩, writers, .cleared⟩ :
        PortState T) := by
      by_contra hquiet
      exact hnot ⟨rfl, hquiet⟩
    obtain ⟨w, hw⟩ := hpending
    obtain ⟨d, hd⟩ : ∃ d, writers w = .stored d := WritePc.pending_iff.mp hw
    refine ⟨.write w .raise :: again,
      (⟨⟨data, false, total, valid, invalid⟩, Function.update writers w (.raised d), .idle⟩,
        ⟨h.stores, h.reads ++ [(h.last, data)] ++ [(h.last, data)]⟩), ?_, htwice _ rfl⟩
    simp [again, port, Machine.withHistory, Signals.machine, read, record, storesAfter, write, hd,
      History.last]

/-- **No update is read twice where every read copies from a settled port**, and a copy from a port
that is not settled can be followed by a second read of the same update. -/
theorem readsOnce (accepts : T → Bool) (zero : T) :
    (∀ p, (port accepts zero).ReachableUnder Settled p → ReadOnce p) ∧
    ∀ p, (port accepts zero).Reachable p → p.1.consumer = .cleared →
      ¬ Settled p (.consume .copy) →
        ∃ labels q, (port accepts zero).exec p (.consume .copy :: labels) = some q ∧
          ¬ ReadOnce q := by
  refine ⟨fun p hp => ?_, fun p _ hcleared hnot => ?_⟩
  · have honce : Once accepts zero p := by
      refine hp.invariant ⟨fun p hp => ?_, fun _ _ _ hs ha hst => hs.step ha hst⟩
      have hempty : p.2 = {} := hp.2
      refine ⟨sound_init hp, ?_, ?_⟩
      · rw [ReadOnce, hempty]
        exact List.nodup_nil
      · rw [hempty]
        exact fun hmem => absurd hmem List.not_mem_nil
    exact honce.once
  · exact exists_second_read hcleared fun hsettled => hnot fun _ => hsettled

/-- Two updates and two reads: the flag of the first update announces the second one to the first
read, and its own flag does so again. -/
def overlapping : List (Label ℤ ℕ ReadStep) :=
  [.write 0 (.call 1), .write 0 .validate, .write 0 .store, .write 0 .raise,
    .write 1 (.call 2), .write 1 .validate, .write 1 .store,
    .consume .test, .consume .clear, .consume .copy,
    .write 1 .raise, .consume .test, .consume .clear, .consume .copy]

/-- The second update is read twice. -/
theorem update_read_twice :
    ∃ p, (port (fun _ => true) (0 : ℤ)).Reachable p ∧ p.2.reads = [(2, 2), (2, 2)] ∧
      ¬ ReadOnce p := by
  let start : PortState ℤ × History ℤ := (⟨{ data := 0 }, fun _ => .idle, .idle⟩, {})
  have hinit : (port (fun _ => true) (0 : ℤ)).init start := ⟨rfl, rfl⟩
  have hexec : ((port (fun _ => true) 0).exec start overlapping).any
      (fun p => p.2.reads = [(2, 2), (2, 2)]) = true := by decide +kernel
  obtain ⟨p, hp, hreads⟩ := (Option.any_eq_true _ _).mp hexec
  have hreads' : p.2.reads = [(2, 2), (2, 2)] := of_decide_eq_true hreads
  refine ⟨p, Machine.Reachable.exec (.init hinit) hp, hreads', ?_⟩
  rw [ReadOnce, hreads']
  decide

/-- An update that is stored and announced is returned by the next read. -/
theorem lastUpdate_not_lost_one :
    ∃ p, (port (fun _ => true) (0 : ℤ)).Reachable p ∧ p.2.stores = [1] ∧
      KeepsLast (fun _ => true) 0 p := by
  let start : PortState ℤ × History ℤ := (⟨{ data := 0 }, fun _ => .idle, .idle⟩, {})
  have hinit : (port (fun _ => true) (0 : ℤ)).init start := ⟨rfl, rfl⟩
  have hexec : ((port (fun _ => true) 0).exec start (overlapping.take 4)).any
      (fun p => p.2.stores = [1]) = true := by decide +kernel
  obtain ⟨p, hp, hstores⟩ := (Option.any_eq_true _ _).mp hexec
  have hreach := Machine.Reachable.exec (.init hinit) hp
  exact ⟨p, hreach, of_decide_eq_true hstores, lastUpdate_not_lost (fun _ => true) 0 p hreach⟩

end AsyncInput

end AxonVex
