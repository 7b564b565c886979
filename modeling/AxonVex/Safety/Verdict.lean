import AxonVex.Safety.Cycles

/-!
# Safety/Verdict — what evaluation cycles return, publish and count

A call of `evaluateAll()` ends in one of two ways.  One that its thread made outside a cycle of its
own has run a complete cycle; one made inside has run none, and returns the worst level so far.
Three invariants carry this (`evaluations_exact`): who is in the cycle, and knows it
(`Disciplined`); what the cycle has done by the place where it stands (`Recorded`); and what the
statistics have still to count (`Counted`).
-/

namespace AxonVex

open Machinery

namespace Evaluation

variable {s s' : Evaluation} {h : History} {t : ℕ} {c : Cycle}

/-! ## Who is in the cycle -/

/-- `evaluatingThread_` holds the thread of the cycle. -/
def CyclePc.published : CyclePc → Bool
  | clearWorst | setOwner | unlock _ => false
  | _ => true

/-- The cycle is in its loop, from which it calls foreign code. -/
def CyclePc.looping : CyclePc → Bool
  | next .. | evaluating .. | count _ | dispatching .. | escalate _ => true
  | _ => false

theorem CyclePc.published_of_looping {pc : CyclePc} (hpc : pc.looping = true) :
    pc.published = true := by
  cases pc <;> first | rfl | exact absurd hpc (by simp [looping])

theorem CyclePc.looping_of_calling {pc : CyclePc} (hpc : pc.calling = true) :
    pc.looping = true := by
  cases pc <;> first | rfl | exact absurd hpc (by simp [calling])

/-- What the last call of a thread knows. -/
def Top (s : Evaluation) (h : History) (t : ℕ) : Frame → Prop
  | .check => ((h.entered t).inside = true ↔ s.owner = some t) ∧
      (s.owner = some t → (h.entered t).reached = h.current.reached)
  | .readWorst => s.owner = some t ∧ (h.entered t).inside = true ∧
      (h.entered t).reached = h.current.reached
  | .lock => (h.entered t).inside = false
  | .trip _ .stats => t ∈ h.tripping
  | _ => True

/-- **The discipline of the threads.** -/
structure Disciplined (p : Evaluation × History) : Prop where
  /-- all calls but the last of each thread run foreign code -/
  under : ∀ t, ∀ f ∈ (p.1.threads t).tail, f.calling = true
  below : ∀ c ∈ p.1.cycle, ∀ f ∈ c.below, f.calling = true
  evaluating : ∀ t, p.1.evaluatingThread_ = some t ↔
    ∃ c, p.1.cycle = some c ∧ c.pc.published = true ∧ c.thread = t
  /-- calls made inside the cycle are made from its loop -/
  inside : ∀ c, p.1.cycle = some c → p.1.threads c.thread ≠ [] → c.pc.looping = true
  tops : ∀ t f rest, p.1.threads t = f :: rest → Top p.1 p.2 t f
  tripping : ∀ t ∈ p.2.tripping, ∃ reason rest, p.1.threads t = .trip reason .stats :: rest

theorem top_of_calling {f : Frame} (hf : f.calling = true) : Top s h t f := by
  unfold Top
  split <;> first | trivial | exact absurd hf (by simp [Frame.calling])

theorem top_of_plain {f : Frame} (hf : f.plain = true) : Top s h t f := by
  unfold Top
  split <;> first | trivial | exact absurd hf (by simp [Frame.plain])

/-- What the last call of a thread knows is of its own, or of the cycle it runs. -/
theorem Top.of_same {h' : History} {f : Frame} (hf : Top s h t f)
    (howner : s'.owner = some t ↔ s.owner = some t) (hentered : h'.entered t = h.entered t)
    (hreached : s.owner = some t → h'.current.reached = h.current.reached)
    (htripping : t ∈ h.tripping → t ∈ h'.tripping) : Top s' h' t f := by
  unfold Top at hf ⊢
  split at hf
  · rw [howner, hentered]
    exact ⟨hf.1, fun ho => (hf.2 ho).trans (hreached ho).symm⟩
  · rw [howner, hentered]
    exact ⟨hf.1, hf.2.1, hf.2.2.trans (hreached hf.1).symm⟩
  · rw [hentered]
    exact hf
  · exact htripping hf
  · trivial

theorem userCode_of_cons {f : Frame} {rest : List Frame} (ht : s.threads t = f :: rest) :
    s.userCode t = f.calling := by
  simp only [userCode, ht]

theorem Under.calling (hs : Disciplined (s, h)) {rest : List Frame} (hunder : Under s t rest) :
    ∀ f ∈ rest, f.calling = true := by
  have htail := hs.under t
  cases hunder with
  | own huser =>
    cases ht : s.threads t with
    | nil => simp
    | cons f rest =>
      change ∀ f ∈ (s.threads t).tail, f.calling = true at htail
      rw [ht] at htail
      rw [userCode_of_cons ht] at huser
      exact List.forall_mem_cons.mpr ⟨huser, htail⟩
  | last ht =>
    change ∀ f ∈ (s.threads t).tail, f.calling = true at htail
    rwa [ht] at htail

/-- A call made inside the cycle is made from its loop. -/
theorem Under.looping (hs : Disciplined (s, h)) {rest : List Frame} (hunder : Under s t rest)
    (hc : s.cycle = some c) (hthread : c.thread = t) : c.pc.looping = true := by
  cases hunder with
  | own huser =>
    cases ht : s.threads t with
    | nil =>
      have hin : s.inCycle t = some c := by
        simp [inCycle, ht, hc, hthread]
      simp only [userCode, ht, hin, Option.all_some] at huser
      exact CyclePc.looping_of_calling huser
    | cons f rest => exact hs.inside c hc (hthread ▸ ht ▸ List.cons_ne_nil f rest)
  | last ht => exact hs.inside c hc (hthread ▸ ht ▸ List.cons_ne_nil _ rest)

/-- A thread that has set the latch and not counted it makes no other step. -/
theorem Under.not_tripping (hs : Disciplined (s, h)) {rest : List Frame} (hunder : Under s t rest) :
    t ∉ h.tripping := by
  intro htripping
  obtain ⟨reason, rest', ht⟩ := hs.tripping t htripping
  cases hunder with
  | own huser =>
    rw [userCode_of_cons ht] at huser
    exact absurd huser (by simp [Frame.calling])
  | last ht' hf =>
    obtain ⟨rfl, -⟩ := List.cons.inj (ht.symm.trans ht')
    exact hf reason rfl

/-- **A step of a call** of one thread. -/
theorem Disciplined.restack (hs : Disciplined (s, h)) {rest : List Frame} {g : Option Frame}
    (hrest : ∀ f ∈ rest, f.calling = true)
    (hlooping : ∀ c, s.cycle = some c → c.thread = t → c.pc.looping = true) {h' : History}
    (hthreads : s'.threads = Function.update s.threads t (g.toList ++ rest))
    (hcycle : s'.cycle = s.cycle) (hevaluating : s'.evaluatingThread_ = s.evaluatingThread_)
    (hcurrent : h'.current = h.current) (hentered : ∀ u ≠ t, h'.entered u = h.entered u)
    (htripping : ∀ u ≠ t, (u ∈ h'.tripping ↔ u ∈ h.tripping))
    (htop : ∀ f ∈ g, Top s' h' t f)
    (htrip : t ∈ h'.tripping → ∃ reason, g = some (.trip reason .stats)) :
    Disciplined (s', h') where
  under u := by
    change ∀ f ∈ (s'.threads u).tail, f.calling = true
    rw [hthreads]
    by_cases hu : u = t
    · subst hu
      rw [Function.update_self]
      cases g with
      | none => exact fun f hf => hrest f (List.mem_of_mem_tail hf)
      | some g => exact hrest
    · rw [Function.update_of_ne hu]
      exact hs.under u
  below := by
    change ∀ c ∈ s'.cycle, _
    rw [hcycle]
    exact hs.below
  evaluating := by
    change ∀ t, s'.evaluatingThread_ = some t ↔ ∃ c, s'.cycle = some c ∧ _
    rw [hcycle, hevaluating]
    exact hs.evaluating
  inside := by
    change ∀ c, s'.cycle = some c → s'.threads c.thread ≠ [] → _
    rw [hcycle, hthreads]
    intro c hc hne
    by_cases hu : c.thread = t
    · exact hlooping c hc hu
    · rw [Function.update_of_ne hu] at hne
      exact hs.inside c hc hne
  tops u f rest' hu := by
    have howner : s'.owner = s.owner := by simp only [owner, hcycle]
    change s'.threads u = _ at hu
    rw [hthreads] at hu
    by_cases hut : u = t
    · subst hut
      rw [Function.update_self] at hu
      cases g with
      | none =>
        have hu : rest = f :: rest' := hu
        exact top_of_calling (hrest f (hu ▸ List.mem_cons_self))
      | some g =>
        obtain ⟨rfl, -⟩ := List.cons.inj hu
        exact htop _ rfl
    · rw [Function.update_of_ne hut] at hu
      exact (hs.tops u f rest' hu).of_same (howner ▸ Iff.rfl) (hentered u hut)
        (fun _ => hcurrent ▸ rfl) (htripping u hut).mpr
  tripping u hu := by
    change ∃ reason rest, s'.threads u = _
    rw [hthreads]
    by_cases hut : u = t
    · subst hut
      obtain ⟨reason, rfl⟩ := htrip hu
      exact ⟨reason, rest, Function.update_self ..⟩
    · rw [Function.update_of_ne hut]
      exact hs.tripping u ((htripping u hut).mp hu)

/-- **A step of the cycle.** -/
theorem Disciplined.goTo (hs : Disciplined (s, h)) (hc : s.cycle = some c)
    (hempty : s.threads c.thread = []) {pc : CyclePc} {h' : History}
    (hcycle : s'.cycle = some { c with pc := pc }) (hthreads : s'.threads = s.threads)
    (hevaluating : s'.evaluatingThread_ = if pc.published then some c.thread else none)
    (hentered : h'.entered = h.entered) (htripping : h'.tripping = h.tripping) :
    Disciplined (s', h') where
  under := by
    change ∀ t, ∀ f ∈ (s'.threads t).tail, f.calling = true
    rw [hthreads]
    exact hs.under
  below := by
    change ∀ c ∈ s'.cycle, _
    rw [hcycle]
    rintro _ ⟨⟩
    exact hs.below c hc
  evaluating t := by
    change s'.evaluatingThread_ = some t ↔ ∃ c, s'.cycle = some c ∧ _
    rw [hevaluating, hcycle]
    split_ifs with hpc <;> simp [hpc]
  inside := by
    change ∀ c, s'.cycle = some c → s'.threads c.thread ≠ [] → _
    rw [hcycle, hthreads]
    rintro _ ⟨⟩ hne
    exact absurd hempty hne
  tops t f rest ht := by
    change s'.threads t = _ at ht
    rw [hthreads] at ht
    have howner : s'.owner = s.owner := by simp only [owner, hcycle, hc, Option.map_some]
    have hne : s.owner ≠ some t := by
      intro ho
      rw [owner, hc] at ho
      rw [Option.some.inj ho] at hempty
      exact absurd (hempty.symm.trans ht) (by simp)
    exact (hs.tops t f rest ht).of_same (howner ▸ Iff.rfl) (hentered ▸ rfl) (fun ho => absurd ho hne)
      (htripping ▸ id)
  tripping := by
    change ∀ t ∈ h'.tripping, ∃ reason rest, s'.threads t = _
    rw [hthreads, htripping]
    exact hs.tripping

theorem Disciplined.evaluating_eq (hs : Disciplined (s, h)) (hc : s.cycle = some c) :
    s.evaluatingThread_ = if c.pc.published then some c.thread else none := by
  split_ifs with hpc
  · exact (hs.evaluating c.thread).mpr ⟨c, hc, hpc, rfl⟩
  · refine Option.eq_none_iff_forall_not_mem.mpr fun t ht => ?_
    obtain ⟨c', hc', hpc', -⟩ := (hs.evaluating t).mp ht
    obtain rfl := Option.some.inj (hc.symm.trans hc')
    exact hpc hpc'

/-- **The cycle keeps the discipline.** -/
theorem CycleMove.disciplined {q : Evaluation × History} (hmove : CycleMove s h c q)
    (hs : Disciplined (s, h)) (hc : s.cycle = some c) (hempty : s.threads c.thread = []) :
    Disciplined q := by
  have hevaluating := hs.evaluating_eq hc
  cases hmove with
  | clearWorst hpc =>
    rw [hpc] at hevaluating
    exact hs.goTo hc hempty rfl rfl hevaluating rfl rfl
  | setOwner hpc => exact hs.goTo hc hempty rfl rfl rfl rfl rfl
  | clearOwner hpc => exact hs.goTo hc hempty rfl rfl rfl rfl rfl
  | @replied entry rest worst r f hpc =>
    rw [hpc] at hevaluating
    refine hs.goTo hc hempty rfl rfl (hevaluating.trans ?_) ?_ ?_
    · by_cases hr : SafetyLevel.nominal < r.level
      · rw [if_pos hr]
        rfl
      · rw [if_neg hr]
        rfl
    · simp only [History.replied, hpc, History.visits]
    · simp only [History.replied, hpc, History.visits]
  | @alarms f hpc =>
    have hgone : Disciplined (s.goTo c (.next f.rest f.worst), h.alarms f.reason) := by
      rw [hpc] at hevaluating
      exact hs.goTo hc hempty rfl rfl hevaluating rfl rfl
    have hnone : ∀ f ∈ ([] : List Frame), f.calling = true := by simp
    refine hgone.restack (g := some (.trip f.reason .exchange)) hnone ?_ rfl rfl rfl rfl
      (fun _ _ => rfl) (fun _ _ => Iff.rfl) ?_ ?_
    · rintro _ ⟨⟩ -
      rfl
    · rintro _ ⟨⟩
      trivial
    · intro htripping
      obtain ⟨reason, rest, ht⟩ := hs.tripping c.thread htripping
      exact absurd (hempty.symm.trans ht) (by simp)
  | unlock hpc =>
    have hne : ∀ t f rest, s.threads t = f :: rest → t ≠ c.thread := by
      rintro t f rest ht rfl
      exact absurd (hempty.symm.trans ht) (by simp)
    have hnone : s.evaluatingThread_ = none := by rw [hevaluating, hpc]; rfl
    constructor
    · intro t
      change ∀ f ∈ (Function.update s.threads c.thread c.below t).tail, f.calling = true
      by_cases ht : t = c.thread
      · subst ht
        rw [Function.update_self]
        exact fun f hf => hs.below c hc f (List.mem_of_mem_tail hf)
      · rw [Function.update_of_ne ht]
        exact hs.under t
    · exact fun c hc => absurd hc (by simp [setFrames])
    · intro t
      change s.evaluatingThread_ = some t ↔ ∃ c, none = some c ∧ _
      simp [hnone]
    · exact fun c hc => absurd hc (by simp [setFrames])
    · intro t f rest ht
      change Function.update s.threads c.thread c.below t = _ at ht
      by_cases htc : t = c.thread
      · subst htc
        rw [Function.update_self] at ht
        exact top_of_calling (hs.below c hc f (ht ▸ List.mem_cons_self))
      · rw [Function.update_of_ne htc] at ht
        have hother : s.owner ≠ some t := by
          rw [owner, hc]
          exact fun ho => htc (Option.some.inj ho).symm
        refine (hs.tops t f rest ht).of_same ?_ rfl (fun _ => rfl) id
        exact ⟨fun ho => absurd ho (by simp [owner, setFrames]), fun ho => absurd ho hother⟩
    · intro t ht
      obtain ⟨reason, rest, hstats⟩ := hs.tripping t ht
      exact ⟨reason, rest, (Function.update_of_ne (hne t _ _ hstats) ..).trans hstats⟩
  | _ hpc =>
    rw [hpc] at hevaluating
    exact hs.goTo hc hempty rfl rfl hevaluating rfl rfl

/-- **Every move keeps the discipline.** -/
theorem Move.disciplined {p q : Evaluation × History} (hmove : Move p q) (hs : Disciplined p) :
    Disciplined q := by
  cases hmove with
  | keeps =>
    exact ⟨hs.under, hs.below, hs.evaluating, hs.inside,
      fun t f rest ht => (hs.tops t f rest ht).of_same Iff.rfl rfl (fun _ => rfl) id, hs.tripping⟩
  | plain hunder hg =>
    exact hs.restack (hunder.calling hs) (fun c hc => hunder.looping hs hc) rfl rfl rfl rfl
      (fun _ _ => rfl) (fun _ _ => Iff.rfl) (fun f hf => top_of_plain (hg f hf))
      (fun ht => (hunder.not_tripping hs ht).elim)
  | @enters s h t huser =>
    have hunder : Under s t _ := .own huser
    refine hs.restack (g := some .check) (hunder.calling hs) (fun c hc => hunder.looping hs hc)
      rfl rfl rfl rfl (fun u hu => Function.update_of_ne hu ..) (fun _ _ => Iff.rfl) ?_
      (fun ht => (hunder.not_tripping hs ht).elim)
    rintro _ ⟨⟩
    change ((Function.update h.entered t _ t).inside = true ↔ s.owner = some t) ∧
      (s.owner = some t → (Function.update h.entered t _ t).reached = h.current.reached)
    rw [Function.update_self]
    exact ⟨decide_eq_true_iff, fun _ => rfl⟩
  | @finds s h t rest ht howner =>
    have hunder : Under s t rest := .last ht (by simp)
    obtain ⟨c, hc, -, hthread⟩ := (hs.evaluating t).mp howner
    have howns : s.owner = some t := by rw [owner, hc, Option.map_some, hthread]
    have hcheck : Top s h t .check := hs.tops t _ _ ht
    refine hs.restack (g := some .readWorst) (hunder.calling hs) (fun c hc => hunder.looping hs hc)
      rfl rfl rfl rfl (fun _ _ => rfl) (fun _ _ => Iff.rfl) ?_
      (fun ht => (hunder.not_tripping hs ht).elim)
    rintro _ ⟨⟩
    exact ⟨howns, hcheck.1.mpr howns, hcheck.2 howns⟩
  | @contends s h t rest ht howner =>
    have hunder : Under s t rest := .last ht (by simp)
    have hcheck : Top s h t .check := hs.tops t _ _ ht
    refine hs.restack (g := some .lock) (hunder.calling hs) (fun c hc => hunder.looping hs hc)
      rfl rfl rfl rfl (fun _ _ => rfl) (fun _ _ => Iff.rfl) ?_
      (fun ht => (hunder.not_tripping hs ht).elim)
    rintro _ ⟨⟩
    refine Bool.eq_false_iff.mpr fun hinside => ?_
    -- a thread that runs the cycle, and is in a call, has published itself
    have howns := hcheck.1.mp hinside
    obtain ⟨c, hc, hthread⟩ := Option.map_eq_some_iff.mp howns
    have hpublished := CyclePc.published_of_looping (hunder.looping hs hc hthread)
    exact howner ((hs.evaluating t).mpr ⟨c, hc, hpublished, hthread⟩)
  | answers ht =>
    have hunder : Under _ _ _ := .last ht (by simp)
    exact hs.restack (g := none) (hunder.calling hs) (fun c hc => hunder.looping hs hc)
      rfl rfl rfl rfl (fun _ _ => rfl) (fun _ _ => Iff.rfl) (by simp)
      (fun ht => (hunder.not_tripping hs ht).elim)
  | @locks s h t rest ht hfree =>
    have hunder : Under s t rest := .last ht (by simp)
    have hempty : ∀ u, Function.update s.threads t [] u ≠ [] → u ≠ t := by
      rintro u hu rfl
      exact hu (Function.update_self ..)
    have hnone : s.evaluatingThread_ = none := by
      refine Option.eq_none_iff_forall_not_mem.mpr fun u hu => ?_
      obtain ⟨c, hc, -⟩ := (hs.evaluating u).mp hu
      exact absurd (hfree.symm.trans hc) (by simp)
    constructor
    · intro u
      change ∀ f ∈ (Function.update s.threads t [] u).tail, f.calling = true
      by_cases hu : u = t
      · subst hu
        rw [Function.update_self]
        simp
      · rw [Function.update_of_ne hu]
        exact hs.under u
    · rintro _ ⟨⟩
      exact hunder.calling hs
    · intro u
      change s.evaluatingThread_ = some u ↔ ∃ c, some _ = some c ∧ _
      simp [hnone, CyclePc.published]
    · rintro _ ⟨⟩ hne
      exact absurd (Function.update_self ..) hne
    · intro u f rest' hu
      change Function.update s.threads t [] u = _ at hu
      have hut : u ≠ t := hempty u (hu ▸ List.cons_ne_nil f rest')
      rw [Function.update_of_ne hut] at hu
      have hother : s.owner ≠ some u := by simp [owner, hfree]
      refine (hs.tops u f rest' hu).of_same ?_ rfl (fun ho => absurd ho hother) id
      exact ⟨fun ho => absurd (Option.some.inj ho).symm hut, fun ho => absurd ho hother⟩
    · intro u hu
      obtain ⟨reason, rest', hstats⟩ := hs.tripping u hu
      refine ⟨reason, rest', (Function.update_of_ne ?_ ..).trans hstats⟩
      rintro rfl
      exact absurd (ht.symm.trans hstats) (by simp)
  | @trips s h t reason rest ht =>
    have hunder : Under s t rest := .last ht (by simp)
    refine hs.restack (g := some (.trip reason .stats)) (hunder.calling hs)
      (fun c hc => hunder.looping hs hc) rfl rfl rfl rfl (fun _ _ => rfl) ?_ ?_
      (fun _ => ⟨reason, rfl⟩)
    · intro u hu
      simp [hu]
    · rintro _ ⟨⟩
      exact Finset.mem_insert_self ..
  | @tallies s h t reason rest event ht =>
    have hrest : ∀ f ∈ rest, f.calling = true := by
      have htail := hs.under t
      change ∀ f ∈ (s.threads t).tail, f.calling = true at htail
      rwa [ht] at htail
    have hlooping : ∀ c, s.cycle = some c → c.thread = t → c.pc.looping = true := by
      rintro c hc rfl
      exact hs.inside c hc (ht ▸ List.cons_ne_nil _ rest)
    refine hs.restack (g := some (.trip reason (.dispatching (.copyHandlers event)))) hrest hlooping
      rfl rfl rfl rfl (fun _ _ => rfl) ?_ ?_ (fun ht => absurd ht (by simp))
    · intro u hu
      simp [hu]
    · rintro _ ⟨⟩
      trivial
  | cycle hc hempty hcycle => exact hcycle.disciplined hs hc hempty

/-! ## What the cycle has done -/

/-- The cycle has reached the policies of its snapshot but for the rest, and keeps the worst. -/
structure Follows (cycleWorst : SafetyLevel) (r : Report) (rest : List Entry)
    (worst : SafetyLevel) : Prop where
  outside : r.call.inside = false
  snapshot : r.snapshot.Perm r.policies
  visits : r.snapshot = r.reached.map Prod.fst ++ rest
  level : IsGreatest (levels r.reached) worst
  kept : cycleWorst = worst

/-- The events of these visits have been published. -/
structure Published (r : Report) (visits : List Visit) : Prop where
  events : r.events.map Sent.event = visits.filterMap violation
  delivered : ∀ e ∈ r.events, e.called = e.registered

/-- The last visit found this. -/
def Judged (f : Found) (r : Report) (visits : List Visit) : Prop :=
  ∃ reply : Reply, reply.result = f.result ∧ r.reached = visits ++ [(f.entry, some reply)]

/-- The event is on its way to the handlers. -/
def Sends (f : Found) (r : Report) : Dispatch → Prop
  | .copyHandlers event => event = f.event
  | .notify _ todo | .handling _ todo =>
    ∃ e, r.sending = some e ∧ e.event = f.event ∧ e.registered = e.called ++ todo

/-- **What the cycle has done where it stands.** -/
def Stage (cycleWorst : SafetyLevel) (r : Report) : CyclePc → Prop
  | .clearWorst => r.call.inside = false ∧ r = { call := r.call }
  | .setOwner | .snapshot =>
    r.call.inside = false ∧ r = { call := r.call } ∧ cycleWorst = .nominal
  | .next rest worst =>
    Follows cycleWorst r rest worst ∧ Published r r.reached ∧ r.trips = r.reached.filterMap alarm
  | .evaluating entry rest worst =>
    Follows cycleWorst r (entry :: rest) worst ∧ Published r r.reached ∧
      r.trips = r.reached.filterMap alarm
  | .count f =>
    Follows cycleWorst r f.rest f.worst ∧ .nominal < f.result.level ∧
      ∃ visits, Judged f r visits ∧ Published r visits ∧ r.trips = visits.filterMap alarm
  | .dispatching f d =>
    Follows cycleWorst r f.rest f.worst ∧ .nominal < f.result.level ∧ Sends f r d ∧
      ∃ visits, Judged f r visits ∧ Published r visits ∧ r.trips = visits.filterMap alarm
  | .escalate f =>
    Follows cycleWorst r f.rest f.worst ∧ Published r r.reached ∧
      ∃ visits, Judged f r visits ∧ r.trips = visits.filterMap alarm
  | .clearOwner worst | .unlock worst =>
    Follows cycleWorst r [] worst ∧ Published r r.reached ∧ r.trips = r.reached.filterMap alarm

/-- A call that has run a cycle. -/
def Finished.Right (e : Finished) : Prop :=
  e.report.call.inside = false ∧ e.report.Complete e.level

/-- A call made inside a cycle has evaluated no policy, and returned the worst of those evaluated
so far. -/
def Answered.Right (e : Answered) : Prop :=
  e.call.inside = true ∧ e.reached = e.call.reached ∧ IsGreatest (levels e.reached) e.level

/-- **The record of the cycles.** -/
structure Recorded (p : Evaluation × History) : Prop where
  stage : ∀ c, p.1.cycle = some c → Stage p.1.cycleWorst_ p.2.current c.pc
  finished : ∀ e ∈ p.2.finished, e.Right
  answered : ∀ e ∈ p.2.answered, e.Right

@[simp] theorem levels_nil : levels [] = {.nominal} := by
  ext l
  simp [levels]

theorem levels_skipped {visits : List Visit} {entry : Entry} :
    levels (visits ++ [(entry, none)]) = levels visits := by
  simp [levels]

theorem levels_replied {visits : List Visit} {entry : Entry} {r : Reply} :
    levels (visits ++ [(entry, some r)]) = insert r.level (levels visits) := by
  ext l
  simp only [levels, List.filterMap_append, Set.mem_setOf_eq, Set.mem_insert_iff, List.mem_cons,
    List.mem_append]
  constructor
  · rintro (rfl | hl | hl)
    · exact .inr (.inl rfl)
    · exact .inr (.inr hl)
    · exact .inl (by simpa using hl)
  · rintro (rfl | rfl | hl)
    · exact .inr (.inr (by simp))
    · exact .inl rfl
    · exact .inr (.inl hl)

theorem isGreatest_replied {visits : List Visit} {entry : Entry} {r : Reply} {worst : SafetyLevel}
    (hworst : IsGreatest (levels visits) worst) :
    IsGreatest (levels (visits ++ [(entry, some r)])) (max worst r.level) := by
  rw [levels_replied, max_comm]
  exact hworst.insert r.level

variable {f : Found} {reply : Reply}

theorem violation_of_result (hreply : reply.result = f.result) :
    violation (f.entry, some reply) =
      if SafetyLevel.nominal < f.result.level then some f.event else none := by
  have hlevel : reply.level = f.result.level := by rw [← hreply, Reply.level_result]
  simp only [violation, Option.bind_some, hlevel, hreply, Found.event]

theorem alarm_of_result (hreply : reply.result = f.result) :
    alarm (f.entry, some reply) =
      if f.result.level = .emergency then some f.reason else none := by
  have hlevel : reply.level = f.result.level := by rw [← hreply, Reply.level_result]
  simp only [alarm, Option.bind_some, hlevel, hreply, Found.reason]

theorem Judged.violations {r : Report} {visits : List Visit} (hf : Judged f r visits) :
    r.reached.filterMap violation = visits.filterMap violation ++
      if SafetyLevel.nominal < f.result.level then [f.event] else [] := by
  obtain ⟨reply, hreply, hreached⟩ := hf
  rw [hreached, List.filterMap_append]
  split_ifs with hlevel <;> simp [violation_of_result hreply, hlevel]

theorem Judged.alarms {r : Report} {visits : List Visit} (hf : Judged f r visits) :
    r.reached.filterMap alarm = visits.filterMap alarm ++
      if f.result.level = .emergency then [f.reason] else [] := by
  obtain ⟨reply, hreply, hreached⟩ := hf
  rw [hreached, List.filterMap_append]
  split_ifs with hlevel <;> simp [alarm_of_result hreply, hlevel]

variable {w worst : SafetyLevel} {r : Report} {entry : Entry} {rest : List Entry}

/-- A policy that is not enabled is passed over. -/
theorem Follows.skips (hr : Follows w r (entry :: rest) worst) :
    Follows w { r with reached := r.reached ++ [(entry, none)] } rest worst :=
  { hr with
    visits := by simp [hr.visits]
    level := by
      rw [levels_skipped]
      exact hr.level }

/-- A policy replies. -/
theorem Follows.replies (hr : Follows w r (entry :: rest) worst) :
    Follows (max worst reply.level) { r with reached := r.reached ++ [(entry, some reply)] } rest
      (max worst reply.level) :=
  { hr with
    visits := by simp [hr.visits]
    level := isGreatest_replied hr.level
    kept := rfl }

/-- What the cycle publishes and trips is no matter of the loop. -/
theorem Follows.of_same (hr : Follows w r rest worst) {r' : Report} (hcall : r'.call = r.call)
    (hpolicies : r'.policies = r.policies) (hsnapshot : r'.snapshot = r.snapshot)
    (hreached : r'.reached = r.reached) : Follows w r' rest worst where
  outside := hcall ▸ hr.outside
  snapshot := by rw [hsnapshot, hpolicies]; exact hr.snapshot
  visits := by rw [hsnapshot, hreached]; exact hr.visits
  level := hreached ▸ hr.level
  kept := hr.kept

/-- The event has reached all handlers. -/
theorem Published.sent {visits : List Visit} (hr : Published r visits) (hf : Judged f r visits)
    (hlevel : .nominal < f.result.level) {event : SafetyEvent}
    (hsends : Sends f r (.notify event [])) :
    Published { r with sending := none, events := r.events ++ r.sending.toList } r.reached := by
  obtain ⟨e, he, hevent, hcalled⟩ := hsends
  rw [List.append_nil] at hcalled
  constructor
  · rw [hf.violations, if_pos hlevel, ← hr.events, ← hevent]
    simp [he]
  · intro e' he'
    rw [he, Option.toList_some, List.mem_append, List.mem_singleton] at he'
    rcases he' with he' | rfl
    · exact hr.delivered e' he'
    · exact hcalled.symm

/-- A reply that is no violation publishes nothing. -/
theorem Published.passes {visits : List Visit} (hr : Published r visits) {r' : Report}
    (hf : Judged f r' visits) (hevents : r'.events = r.events)
    (hlevel : ¬ SafetyLevel.nominal < f.result.level) : Published r' r'.reached := by
  constructor
  · rw [hevents, hf.violations, if_neg hlevel, List.append_nil]
    exact hr.events
  · rw [hevents]
    exact hr.delivered

theorem current_replied {reply : Reply} (hpc : c.pc = .evaluating entry rest worst) :
    (h.replied reply c).current =
      { h.current with reached := h.current.reached ++ [(entry, some reply)] } := by
  simp only [History.replied, hpc, History.visits]

theorem cycleWorst_replied (hworst : s.cycleWorst_ = worst) :
    (if worst < reply.level then reply.level else s.cycleWorst_) = max worst reply.level := by
  rw [hworst, max_comm, max_def]
  split_ifs with hlt hle hle
  · exact absurd hlt (not_lt.mpr hle)
  · rfl
  · rfl
  · exact absurd (not_le.mp hle) hlt

/-- A reply in the loop. -/
theorem Stage.replies (hstage : Stage w r (.evaluating entry rest worst)) {r' : Report}
    (hr' : r' = { r with reached := r.reached ++ [(entry, some reply)] })
    (hf : f = { entry, result := reply.result, rest, worst := max worst reply.level }) :
    Stage (max worst reply.level) r'
      (if SafetyLevel.nominal < reply.level then .count f else .escalate f) := by
  obtain ⟨hfollows, hpublished, htrips⟩ := hstage
  have hlevel : f.result.level = reply.level := by rw [hf, Reply.level_result]
  have hjudged : Judged f r' r.reached := ⟨reply, by rw [hf], by rw [hr', hf]⟩
  have hfollows' : Follows (max worst reply.level) r' f.rest f.worst := by
    rw [hr', hf]
    exact hfollows.replies
  have htrips' : r'.trips = r.reached.filterMap alarm := hr' ▸ htrips
  split_ifs with hviolates
  · refine ⟨hfollows', hlevel ▸ hviolates, r.reached, hjudged, ?_, htrips'⟩
    exact ⟨hr' ▸ hpublished.events, hr' ▸ hpublished.delivered⟩
  · exact ⟨hfollows', hpublished.passes hjudged (hr' ▸ rfl) (hlevel ▸ hviolates), r.reached,
      hjudged, htrips'⟩

/-- **The cycle is where it stands after a step, too.** -/
theorem CycleMove.stage {q : Evaluation × History} (hmove : CycleMove s h c q)
    (hstage : Stage s.cycleWorst_ h.current c.pc) :
    ∀ c', q.1.cycle = some c' → Stage q.1.cycleWorst_ q.2.current c'.pc := by
  cases hmove with
  | clearWorst hpc =>
    rw [hpc] at hstage
    rintro _ ⟨⟩
    exact ⟨hstage.1, hstage.2, rfl⟩
  | snapshot hpc hperm =>
    rw [hpc] at hstage
    obtain ⟨houtside, hfresh, hworst⟩ := hstage
    have hreached : h.current.reached = [] := congrArg Report.reached hfresh
    have hevents : h.current.events = [] := congrArg Report.events hfresh
    have htrips : h.current.trips = [] := congrArg Report.trips hfresh
    rintro _ ⟨⟩
    refine ⟨⟨houtside, hperm, by simp [hreached], ?_, hworst⟩, ⟨by simp [hevents, hreached],
      by simp [hevents]⟩, by simp [htrips, hreached]⟩
    rw [hreached, levels_nil]
    exact isGreatest_singleton
  | skips hpc =>
    rw [hpc] at hstage
    obtain ⟨hfollows, hpublished, htrips⟩ := hstage
    rintro _ ⟨⟩
    refine ⟨hfollows.skips, ⟨?_, hpublished.delivered⟩, ?_⟩
    · simp [History.visits, hpublished.events, violation]
    · simp [History.visits, htrips, alarm]
  | @replied entry rest worst reply f hpc hf =>
    rw [hpc] at hstage
    rintro _ ⟨⟩
    have hworst : (if worst < reply.level then reply.level else s.cycleWorst_) =
        max worst reply.level := cycleWorst_replied hstage.1.kept
    exact hworst ▸ hstage.replies (current_replied hpc) hf
  | counts hpc =>
    rw [hpc] at hstage
    rintro _ ⟨⟩
    exact ⟨hstage.1, hstage.2.1, rfl, hstage.2.2⟩
  | sends hpc =>
    rw [hpc] at hstage
    obtain ⟨hfollows, hlevel, hevent, visits, hjudged, hpublished, htrips⟩ := hstage
    rintro _ ⟨⟩
    exact ⟨hfollows.of_same rfl rfl rfl rfl, hlevel, ⟨_, rfl, hevent, rfl⟩, visits, hjudged,
      ⟨hpublished.events, hpublished.delivered⟩, htrips⟩
  | @hands f event handler todo hpc =>
    rw [hpc] at hstage
    obtain ⟨hfollows, hlevel, ⟨e, he, hevent, hcalled⟩, visits, hjudged, hpublished, htrips⟩ :=
      hstage
    have hsends : Sends f (h.hands handler).current (.handling event todo) := by
      refine ⟨{ e with called := e.called ++ [handler] }, ?_, hevent, ?_⟩
      · simp only [History.hands, he, Option.map_some]
      · rw [hcalled, List.append_assoc, List.singleton_append]
    rintro _ ⟨⟩
    exact ⟨hfollows.of_same rfl rfl rfl rfl, hlevel, hsends, visits, hjudged,
      ⟨hpublished.events, hpublished.delivered⟩, htrips⟩
  | sent hpc =>
    rw [hpc] at hstage
    obtain ⟨hfollows, hlevel, hsends, visits, hjudged, hpublished, htrips⟩ := hstage
    rintro _ ⟨⟩
    exact ⟨hfollows.of_same rfl rfl rfl rfl, hpublished.sent hjudged hlevel hsends, visits,
      hjudged, htrips⟩
  | passes hpc hlevel =>
    rw [hpc] at hstage
    obtain ⟨hfollows, hpublished, visits, hjudged, htrips⟩ := hstage
    rintro _ ⟨⟩
    refine ⟨hfollows, hpublished, ?_⟩
    rw [hjudged.alarms, if_neg hlevel, List.append_nil]
    exact htrips
  | alarms hpc hlevel =>
    rw [hpc] at hstage
    obtain ⟨hfollows, hpublished, visits, hjudged, htrips⟩ := hstage
    rintro _ ⟨⟩
    refine ⟨hfollows.of_same rfl rfl rfl rfl, ⟨hpublished.events, hpublished.delivered⟩, ?_⟩
    have halarms := hjudged.alarms
    rw [if_pos hlevel, ← htrips] at halarms
    exact halarms.symm
  | unlock hpc => exact fun c hc => absurd hc (by simp [setFrames])
  | _ hpc =>
    rw [hpc] at hstage
    rintro _ ⟨⟩
    exact hstage

/-- In its loop a cycle has kept the worst of the levels. -/
theorem Stage.greatest {pc : CyclePc} (hstage : Stage w r pc) (hpc : pc.looping = true) :
    IsGreatest (levels r.reached) w := by
  have hfollows : ∃ rest worst, Follows w r rest worst := by
    cases pc with
    | next | evaluating | count | dispatching | escalate => exact ⟨_, _, hstage.1⟩
    | _ => exact absurd hpc (by simp [CyclePc.looping])
  obtain ⟨rest, worst, hfollows⟩ := hfollows
  exact hfollows.kept ▸ hfollows.level

/-- A cycle that unlocks is complete. -/
theorem Stage.complete (hstage : Stage w r (.unlock worst)) : r.Complete worst := by
  obtain ⟨hfollows, hpublished, htrips⟩ := hstage
  refine ⟨hfollows.snapshot, ?_, hfollows.level, hpublished.events, hpublished.delivered, htrips⟩
  rw [hfollows.visits, List.append_nil]

/-- **Every move keeps the record.** -/
theorem Move.recorded {p q : Evaluation × History} (hmove : Move p q) (hp : Disciplined p)
    (hrecorded : Recorded p) : Recorded q := by
  cases hmove with
  | @answers s h t rest ht =>
    refine ⟨hrecorded.stage, hrecorded.finished, ?_⟩
    rintro e he
    rcases List.mem_append.mp he with he | he
    · exact hrecorded.answered e he
    · obtain rfl := List.mem_singleton.mp he
      obtain ⟨howner, hinside, hreached⟩ : Top s h t .readWorst := hp.tops t _ _ ht
      obtain ⟨c, hc, hthread⟩ := Option.map_eq_some_iff.mp howner
      have hlooping := hp.inside c hc (hthread ▸ ht ▸ List.cons_ne_nil _ rest)
      exact ⟨hinside, hreached.symm, (hrecorded.stage c hc).greatest hlooping⟩
  | @locks s h t rest ht hfree =>
    have houtside : Top s h t .lock := hp.tops t _ _ ht
    refine ⟨?_, hrecorded.finished, hrecorded.answered⟩
    rintro _ ⟨⟩
    exact ⟨houtside, rfl⟩
  | @cycle s h c q hc hempty hcycle =>
    have hstage := hrecorded.stage c hc
    refine ⟨hcycle.stage hstage, ?_, ?_⟩
    · cases hcycle with
      | unlock hpc =>
        rw [hpc] at hstage
        intro e he
        rcases List.mem_append.mp he with he | he
        · exact hrecorded.finished e he
        · obtain rfl := List.mem_singleton.mp he
          exact ⟨hstage.1.outside, hstage.complete⟩
      | replied hpc =>
        simp only [History.replied, hpc]
        exact hrecorded.finished
      | _ => exact hrecorded.finished
    · cases hcycle with
      | replied hpc =>
        simp only [History.replied, hpc]
        exact hrecorded.answered
      | _ => exact hrecorded.answered
  | _ => exact ⟨hrecorded.stage, hrecorded.finished, hrecorded.answered⟩

/-! ## What has been counted -/

/-- A violation that the statistics do not hold yet. -/
def CyclePc.uncounted : CyclePc → Option SafetyLevel
  | count f => some f.result.level
  | _ => none

/-- The cycle has been counted, and has not returned. -/
def CyclePc.ended : CyclePc → Bool
  | clearOwner _ | unlock _ => true
  | _ => false

/-- **The account of the statistics.** -/
structure Counted (p : Evaluation × History) : Prop where
  violations : p.1.stats_.policyViolations +
    (p.1.cycle.bind fun c => c.pc.uncounted).toList.length = p.2.violations
  cycles : p.1.stats_.evaluationCycles =
    p.2.finished.length + (p.1.cycle.filter fun c => c.pc.ended).toList.length
  stops : p.1.stats_.emergencyStopCount + p.2.tripping.card = p.2.engaged
  seen : p.1.stats_.worstLevelSeen ∈ SafetyLevel.nominal :: p.2.levels
  /-- a level above the worst seen is on its way to the statistics -/
  worst : ∀ l ∈ p.2.levels, l ≤ p.1.stats_.worstLevelSeen ∨
    (∃ l' ∈ p.1.cycle.bind fun c => c.pc.uncounted, l ≤ l') ∨ p.2.tripping.Nonempty
  uncounted : ∀ l ∈ p.1.cycle.bind fun c => c.pc.uncounted, l ∈ p.2.levels
  emergency : p.2.tripping.Nonempty → .emergency ∈ p.2.levels

/-- A step that counts nothing. -/
theorem Counted.of_same (hs : Counted (s, h)) {h' : History} (hstats : s'.stats_ = s.stats_)
    (huncounted : (s'.cycle.bind fun c => c.pc.uncounted) = s.cycle.bind fun c => c.pc.uncounted)
    (hended : h'.finished.length + (s'.cycle.filter fun c => c.pc.ended).toList.length =
      h.finished.length + (s.cycle.filter fun c => c.pc.ended).toList.length)
    (hviolations : h'.violations = h.violations) (hlevels : h'.levels = h.levels)
    (hengaged : h'.engaged = h.engaged) (htripping : h'.tripping = h.tripping) :
    Counted (s', h') where
  violations := by
    change s'.stats_.policyViolations + _ = h'.violations
    rw [hstats, hviolations]
    exact huncounted ▸ hs.violations
  cycles := by
    change s'.stats_.evaluationCycles = h'.finished.length + _
    rw [hstats]
    exact hs.cycles.trans hended.symm
  stops := by
    change s'.stats_.emergencyStopCount + h'.tripping.card = h'.engaged
    rw [hstats, htripping, hengaged]
    exact hs.stops
  seen := by
    change s'.stats_.worstLevelSeen ∈ SafetyLevel.nominal :: h'.levels
    rw [hstats, hlevels]
    exact hs.seen
  worst := by
    change ∀ l ∈ h'.levels, l ≤ s'.stats_.worstLevelSeen ∨ _ ∨ h'.tripping.Nonempty
    rw [hstats, hlevels, htripping]
    exact huncounted ▸ hs.worst
  uncounted := by
    change ∀ l ∈ s'.cycle.bind fun c => c.pc.uncounted, l ∈ h'.levels
    rw [hlevels, huncounted]
    exact hs.uncounted
  emergency := by
    change h'.tripping.Nonempty → _ ∈ h'.levels
    rw [hlevels, htripping]
    exact hs.emergency

theorem le_counted {l : SafetyLevel} {level : SafetyLevel}
    (hl : l ≤ s.stats_.worstLevelSeen ∨ l ≤ level) : l ≤ (s.counted level).worstLevelSeen := by
  change l ≤ if s.stats_.worstLevelSeen < level then level else s.stats_.worstLevelSeen
  split_ifs with hlt
  · exact hl.elim (fun hl => hl.trans hlt.le) id
  · exact hl.elim id fun hl => hl.trans (not_lt.mp hlt)

/-- A reply is on its way to the statistics if it is a violation. -/
theorem Counted.replies (hs : Counted (s, h)) (hc : s.cycle = some c)
    (hpc : c.pc = .evaluating entry rest worst)
    (hf : f = { entry, result := reply.result, rest, worst := max worst reply.level })
    (hcycle : s'.cycle = some { c with
      pc := if SafetyLevel.nominal < reply.level then .count f else .escalate f })
    (hstats : s'.stats_ = s.stats_) : Counted (s', h.replied reply c) := by
  have hlevel : f.result.level = reply.level := by rw [hf, Reply.level_result]
  have hold : (s.cycle.bind fun c => c.pc.uncounted) = none := by
    simp [hc, hpc, CyclePc.uncounted]
  have hnew : (s'.cycle.bind fun c => c.pc.uncounted) =
      if SafetyLevel.nominal < reply.level then some reply.level else none := by
    rw [hcycle, Option.bind_some]
    split_ifs
    · exact congrArg some hlevel
    · rfl
  have hreplied : h.replied reply c = { h.visits (entry, some reply) with
      violations := h.violations + if SafetyLevel.nominal < reply.level then 1 else 0
      levels := h.levels ++ [reply.level] } := by
    simp only [History.replied, hpc]
  rw [hreplied]
  constructor
  · change s'.stats_.policyViolations + _ = h.violations + _
    rw [hstats, ← hs.violations]
    simp only [hold, hnew]
    split_ifs <;> rfl
  · have hended : (s'.cycle.filter fun c => c.pc.ended) = none := by
      rw [hcycle]
      split_ifs <;> rfl
    have hended' : (s.cycle.filter fun c => c.pc.ended) = none := by
      simp [hc, hpc, CyclePc.ended]
    change s'.stats_.evaluationCycles = h.finished.length + _
    rw [hstats, hs.cycles, hended]
    simp only [hended']
  · exact hstats ▸ hs.stops
  · change s'.stats_.worstLevelSeen ∈ SafetyLevel.nominal :: (h.levels ++ [reply.level])
    rw [hstats, ← List.cons_append]
    exact List.mem_append_left _ hs.seen
  · change ∀ l ∈ h.levels ++ [reply.level], l ≤ s'.stats_.worstLevelSeen ∨ _ ∨ h.tripping.Nonempty
    intro l hl
    rw [hstats, hnew]
    rcases List.mem_append.mp hl with hl | hl
    · rcases hs.worst l hl with hseen | ⟨l', hl', -⟩ | htripping
      · exact .inl hseen
      · exact absurd (hold.symm.trans hl') (by simp)
      · exact .inr (.inr htripping)
    · obtain rfl := List.mem_singleton.mp hl
      by_cases hviolates : SafetyLevel.nominal < reply.level
      · exact .inr (.inl ⟨reply.level, if_pos hviolates, le_rfl⟩)
      · exact .inl ((not_lt.mp hviolates).trans (SafetyLevel.nominal_le _))
  · change ∀ l ∈ s'.cycle.bind fun c => c.pc.uncounted, l ∈ h.levels ++ [reply.level]
    rw [hnew]
    intro l hl
    split_ifs at hl
    · obtain ⟨⟩ := hl
      exact List.mem_append_right _ List.mem_cons_self
    · exact absurd hl (by simp)
  · exact fun htripping => List.mem_append_left _ (hs.emergency htripping)

/-- **The cycle keeps the account.** -/
theorem CycleMove.counted {q : Evaluation × History} (hmove : CycleMove s h c q)
    (hs : Counted (s, h)) (hc : s.cycle = some c) : Counted q := by
  cases hmove with
  | replied hpc hf => exact hs.replies hc hpc hf rfl rfl
  | @counts f hpc =>
    have hold : (s.cycle.bind fun c => c.pc.uncounted) = some f.result.level := by
      simp [hc, hpc, CyclePc.uncounted]
    have hended : (s.cycle.filter fun c => c.pc.ended) = none := by
      simp [hc, hpc, CyclePc.ended]
    have hmem : f.result.level ∈ h.levels := hs.uncounted _ hold
    constructor
    · have hviolations := hs.violations
      simp only [hold, Option.toList_some, List.length_singleton] at hviolations
      exact hviolations
    · have hcycles := hs.cycles
      simp only [hended] at hcycles
      exact hcycles
    · exact hs.stops
    · change (s.counted f.result.level).worstLevelSeen ∈ _
      unfold Evaluation.counted
      dsimp only
      split_ifs
      · exact List.mem_cons_of_mem _ hmem
      · exact hs.seen
    · intro l hl
      rcases hs.worst l hl with hseen | ⟨l', hl', hle⟩ | htripping
      · exact .inl (le_counted (.inl hseen))
      · obtain rfl := Option.some.inj (hold.symm.trans hl')
        exact .inl (le_counted (.inr hle))
      · exact .inr (.inr htripping)
    · exact fun l hl => absurd hl (by simp [goTo, CyclePc.uncounted])
    · exact hs.emergency
  | done hpc =>
    have hold : (s.cycle.bind fun c => c.pc.uncounted) = none := by
      simp [hc, hpc, CyclePc.uncounted]
    have hended : (s.cycle.filter fun c => c.pc.ended) = none := by
      simp [hc, hpc, CyclePc.ended]
    have hworst := hs.worst
    have hviolations := hs.violations
    have hcycles := hs.cycles
    simp only [hold] at hworst hviolations
    simp only [hended] at hcycles
    exact ⟨hviolations, congrArg (· + 1) hcycles, hs.stops, hs.seen, hworst,
      fun l hl => absurd hl (by simp [goTo, CyclePc.uncounted]), hs.emergency⟩
  | unlock hpc =>
    refine hs.of_same rfl ?_ ?_ rfl rfl rfl rfl
    · simp [setFrames, hc, hpc, CyclePc.uncounted]
    · simp [setFrames, hc, hpc, CyclePc.ended, Option.filter_some]
  | _ hpc =>
    refine hs.of_same rfl ?_ ?_ rfl rfl rfl rfl
    · simp [goTo, setFrames, hc, hpc, CyclePc.uncounted]
    · simp [goTo, setFrames, hc, hpc, CyclePc.ended, Option.filter_some, History.visits,
        History.sends, History.hands, History.sent, History.alarms]

/-- **Every move keeps the account.** -/
theorem Move.counted {p q : Evaluation × History} (hmove : Move p q) (hp : Disciplined p)
    (hcounted : Counted p) : Counted q := by
  cases hmove with
  | @trips s h t reason rest ht =>
    have hunder : Under s t rest := .last ht (by simp)
    have hcard := Finset.card_insert_of_notMem (hunder.not_tripping hp)
    refine ⟨hcounted.violations, hcounted.cycles, ?_, ?_, ?_, ?_, ?_⟩
    · change s.stats_.emergencyStopCount + (insert t h.tripping).card = h.engaged + 1
      rw [hcard, ← Nat.add_assoc]
      exact congrArg (· + 1) hcounted.stops
    · exact List.mem_append_left [.emergency] hcounted.seen
    · exact fun l _ => .inr (.inr (Finset.insert_nonempty t h.tripping))
    · exact fun l hl => List.mem_append_left _ (hcounted.uncounted l hl)
    · exact fun _ => List.mem_append_right _ List.mem_cons_self
  | @tallies s h t reason rest event ht =>
    have hmem : t ∈ h.tripping := hp.tops t _ _ ht
    have hcard := Finset.card_erase_add_one hmem
    refine ⟨hcounted.violations, hcounted.cycles, ?_, ?_, ?_, hcounted.uncounted, ?_⟩
    · change s.stats_.emergencyStopCount + 1 + (h.tripping.erase t).card = h.engaged
      have hstops : s.stats_.emergencyStopCount + h.tripping.card = h.engaged := hcounted.stops
      omega
    · exact List.mem_cons_of_mem _ (hcounted.emergency ⟨t, hmem⟩)
    · exact fun l _ => .inl (SafetyLevel.le_emergency l)
    · exact fun htripping => hcounted.emergency (htripping.mono (Finset.erase_subset t h.tripping))
  | locks ht hfree =>
    refine hcounted.of_same rfl ?_ ?_ rfl rfl rfl rfl
    · simp [setFrames, hfree, CyclePc.uncounted]
    · simp [setFrames, hfree, CyclePc.ended]
  | cycle hc hempty hcycle => exact hcycle.counted hcounted hc
  | _ => exact hcounted.of_same rfl rfl rfl rfl rfl rfl rfl

/-! ## Runs -/

theorem reachable_recorded : recorded.Reachable ({}, {}) := .init ⟨rfl, rfl⟩

/-- **The invariant of the runs.** -/
theorem inductive_disciplined : recorded.Inductive (fun _ _ => True)
    fun p => Disciplined p ∧ Recorded p ∧ Counted p where
  init p hp := by
    obtain ⟨s, h⟩ := p
    obtain ⟨hs, hh⟩ := hp
    obtain rfl : s = {} := hs
    obtain rfl : h = {} := hh
    refine ⟨?_, ?_, ?_⟩
    · constructor <;> simp
    · constructor <;> simp
    · constructor <;> simp
  step p a q hp _ hstep := by
    obtain ⟨hdisciplined, hrecorded, hcounted⟩ := hp
    obtain ⟨hstep, hrecord⟩ := Machine.withHistory_step.mp hstep
    obtain ⟨s, h⟩ := p
    obtain ⟨s', h'⟩ := q
    obtain rfl : record s a s' h = h' := hrecord
    have hmove : Move (s, h) (s', record s a s' h) := move_of_step hstep
    exact ⟨hmove.disciplined hdisciplined, hmove.recorded hdisciplined hrecorded,
      hmove.counted hdisciplined hcounted⟩

/-- The statistics hold what the run has done. -/
structure Exact (stats : SafetyManagerStatistics) (h : History) : Prop where
  violations : stats.policyViolations = h.violations
  cycles : stats.evaluationCycles = h.finished.length
  stops : stats.emergencyStopCount = h.engaged
  worst : IsGreatest {l | l ∈ SafetyLevel.nominal :: h.levels} stats.worstLevelSeen

theorem Counted.exact {p : Evaluation × History} (hp : Counted p) (hdisciplined : Disciplined p)
    (hreturned : p.1.Returned) : Exact p.1.stats_ p.2 := by
  obtain ⟨hfree, hempty⟩ := hreturned
  have htripping : p.2.tripping = ∅ := by
    refine Finset.eq_empty_of_forall_notMem fun t ht => ?_
    obtain ⟨reason, rest, hstats⟩ := hdisciplined.tripping t ht
    exact absurd ((hempty t).symm.trans hstats) (by simp)
  obtain ⟨hviolations, hcycles, hstops, hseen, hworst, -, -⟩ := hp
  simp only [hfree, htripping] at hviolations hcycles hstops hworst
  refine ⟨hviolations, hcycles, hstops, hseen, fun l hl => ?_⟩
  rcases List.mem_cons.mp hl with rfl | hl
  · exact SafetyLevel.nominal_le _
  · rcases hworst l hl with hle | ⟨l', hl', -⟩ | hne
    · exact hle
    · exact absurd hl' (by simp)
    · exact absurd hne (by simp)

/-- **What evaluations return, publish and count.**  In every run, whatever policies, handlers and
other threads do: a call of `evaluateAll()` that ran a cycle was made outside one, and its cycle is
complete; a call that ran none was made inside one, evaluated no policy, and returned the worst
level so far; and when all calls have returned the statistics are exact. -/
theorem evaluations_exact {p : Evaluation × History} (hp : recorded.Reachable p) :
    (∀ e ∈ p.2.finished, e.Right) ∧ (∀ e ∈ p.2.answered, e.Right) ∧
      (p.1.Returned → Exact p.1.stats_ p.2) := by
  obtain ⟨hdisciplined, hrecorded, hcounted⟩ := hp.invariant inductive_disciplined
  exact ⟨hrecorded.finished, hrecorded.answered, hcounted.exact hdisciplined⟩

/-- A cycle of two policies: the first calls back, as does the handler of its event, and throws;
the second trips the emergency stop. -/
def breach : List Label :=
  [.call 0 (.registerHandler 7), .call 0 (.addPolicy "battery" 1),
    .call 0 (.addPolicy "geofence" 2), .call 0 .evaluateAll, .step 0, .step 0, .step 0, .step 0,
    .snapshot 0 [("battery", 1), ("geofence", 2)], .step 0,
    .call 0 .evaluateAll, .step 0, .step 0, .reply 0 (.throws "sensor"),
    .step 0, .step 0, .step 0, .call 0 .evaluateAll, .step 0, .step 0, .handled 0, .step 0, .step 0,
    .step 0, .reply 0 (.returns { level := .emergency, description := "outside" }),
    .step 0, .step 0, .step 0, .handled 0, .step 0, .step 0,
    .step 0, .step 0, .step 0, .step 0, .handled 0, .step 0, .step 0, .step 0,
    .step 0, .step 0, .step 0]

theorem evaluations_exact_breach :
    ∃ p, recorded.exec ({}, {}) breach = some p ∧
      p.2.finished.map Finished.level = [.emergency] ∧
      p.2.answered.map Answered.level = [.nominal, .critical] ∧
      (∀ e ∈ p.2.finished, e.Right) ∧ (∀ e ∈ p.2.answered, e.Right) ∧
      (p.1.Returned → Exact p.1.stats_ p.2) := by
  have hrun : (recorded.exec ({}, {}) breach).any (fun p =>
      p.2.finished.map Finished.level = [.emergency] &&
        p.2.answered.map Answered.level = [.nominal, .critical]) = true := by decide +kernel
  obtain ⟨p, hp, hlevels⟩ := (Option.any_eq_true _ _).mp hrun
  rw [Bool.and_eq_true, decide_eq_true_iff, decide_eq_true_iff] at hlevels
  exact ⟨p, hp, hlevels.1, hlevels.2, evaluations_exact (.exec reachable_recorded hp)⟩

end Evaluation

end AxonVex
