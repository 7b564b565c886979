import AxonVex.Logging.Blocks

/-!
# Logging/Stop — what `stop` leaves behind

    stop:   shutdown_requested_ ──▸ the loop ends ──▸ drain until a dequeue finds nothing ──▸ join

Whatever the threads do, each output is given the messages in the order of the queue, each at most
once, and as they were logged (`keeps_of_reachable`).  A message that was accepted before `stop` can
be missed, though: the drain ends at a slot that a `log` still in progress has claimed and not
filled, with accepted messages behind it (`stop_misses_message`).  In the runs in which the drain
ends at a position that nobody has claimed, every `stop` leaves nothing behind (`logs`).
-/

namespace AxonVex

open Machinery

namespace MessageLogger

open Logging

variable {s s' : MessageLogger} {h : History} {a : Logging.Label} {t u : LogThread}

/-! ## What the outputs are given -/

/-- The message at hand, if the output `i` has been given it. -/
def given (s : MessageLogger) (i : ℕ) : List Pointer :=
  match s.loop with
  | .writes _ p j => if i < j then [p] else []
  | .frees _ p => [p]
  | _ => []

/-- **Each output was given the messages that were processed**, in their order and as they were
logged. -/
structure Fed (s : MessageLogger) (h : History) : Prop where
  calls (i : ℕ) : i < s.outputs →
    (s.written i).map Written.call = (h.processed ++ s.given i).map Pointer.call
  content (i : ℕ) (w : Written) : i < s.outputs → w ∈ s.written i → w.content = some w.call.message

/-- Nothing is written, and the outputs have of the message at hand what they had. -/
theorem Fed.keeps (hf : s.Fed h) {h' : History} (houtputs : s'.outputs = s.outputs)
    (hwritten : s'.written = s.written)
    (hgiven : ∀ i, i < s.outputs → h'.processed ++ s'.given i = h.processed ++ s.given i) :
    s'.Fed h' where
  calls i hi := by
    have hi' : i < s.outputs := houtputs ▸ hi
    rw [hwritten, hgiven i hi', hf.calls i hi']
  content i w hi hw := hf.content i w (houtputs ▸ hi) (hwritten ▸ hw)

theorem given_prefix_hand (s : MessageLogger) (i : ℕ) : s.given i <+: s.hand.toList := by
  cases hloop : s.loop with
  | writes m p j =>
    by_cases hlt : i < j
    · simp [given, hand, hloop, hlt]
    · simp [given, hloop, hlt]
  | frees m p => simp [given, hand, hloop]
  | _ => simp [given, hloop]

theorem Fed.step (hf : s.Fed h) (hc : s.Custody h)
    (hserved : s.message_queue_.Served h.processed s.hand) (hcycle : s.Cycle)
    (hstep : s.Steps a s') : s'.Fed (record s a s' h) := by
  have hkeep (hprocessed : (record s a s' h).processed = h.processed)
      (houtputs : s'.outputs = s.outputs) (hwritten : s'.written = s.written)
      (hloop : s'.loop = s.loop) : s'.Fed (record s a s' h) := by
    refine hf.keeps houtputs hwritten fun i _ => ?_
    rw [hprocessed, given, given, hloop]
  -- nothing is at hand, before and after
  have hnone (hprocessed : (record s a s' h).processed = h.processed)
      (houtputs : s'.outputs = s.outputs) (hwritten : s'.written = s.written)
      (hwas : ∀ i, s.given i = []) (his : ∀ i, s'.given i = []) : s'.Fed (record s a s' h) :=
    hf.keeps houtputs hwritten fun i _ => by rw [hprocessed, hwas, his]
  cases hstep with
  | @write m p i at_ lt quiet =>
    have hhand : s.hand = some p := by simp [hand, at_]
    have hqueued : s.Queued h p := by
      obtain ⟨rest, hrest⟩ := hserved.isPrefix
      rw [Queued, ← hrest, hhand]
      simp
    have hcontent : s.memory p.block = some p.call.message := hc.content p (.inr hqueued)
    have hprocessed : (record s .loop { s with
        written := Function.update s.written i (s.written i ++ [⟨p.call, s.memory p.block⟩])
        loop := .writes m p (i + 1) } h).processed = h.processed := record_processed (by simp [at_])
    refine ⟨fun j hj => ?_, fun j w hj hw => ?_⟩
    · rw [hprocessed]
      change (Function.update s.written i (s.written i ++ [⟨p.call, s.memory p.block⟩]) j).map
        Written.call = (h.processed ++ if j < i + 1 then [p] else []).map Pointer.call
      have hold := hf.calls j hj
      by_cases hji : j = i
      · subst hji
        have hempty : s.given j = [] := by simp [given, at_]
        rw [Function.update_self, List.map_append, hold, hempty, if_pos (Nat.lt_succ_self j)]
        simp
      · have hsame : s.given j = if j < i + 1 then [p] else [] := by
          simp only [given, at_]
          congr 1
          exact propext ⟨fun hlt => by omega, fun hlt => by omega⟩
        rw [Function.update_of_ne hji, hold, hsame]
    · change w ∈ Function.update s.written i (s.written i ++ [⟨p.call, s.memory p.block⟩]) j at hw
      by_cases hji : j = i
      · subst hji
        rw [Function.update_self, List.mem_append, List.mem_singleton] at hw
        rcases hw with hw | rfl
        · exact hf.content j w hj hw
        · exact hcontent
      · rw [Function.update_of_ne hji] at hw
        exact hf.content j w hj hw
  | @processed m p i at_ le =>
    refine hf.keeps rfl rfl fun j hj => ?_
    rw [record_processed (by simp [at_])]
    have hji : j < i := by omega
    simp [given, at_, hji]
  | @free m p at_ =>
    refine hf.keeps rfl rfl fun j hj => ?_
    have hprocessed : (record s .loop { s with
        allocated := Function.update s.allocated p.block false
        loop := if m = .turn then .test else .poll .drain } h).processed = h.processed ++ [p] := by
      simp only [record, at_]
    rw [hprocessed]
    cases m <;> simp [given, at_]
  | @dequeued t m item q at_ loop step =>
    refine hnone rfl rfl rfl (fun i => by simp [given, loop]) fun i => ?_
    cases item <;> cases m <;> simp [given, afterDequeue]
  | joins at_ loop =>
    refine hnone (record_processed (by simp)) rfl rfl (fun i => ?_) fun i => rfl
    rcases loop with hloop | hloop <;> simp [given, hloop]
  | spawn at_ quiet =>
    exact hnone rfl rfl rfl (fun i => by simp [given, hcycle.absent at_]) fun i => rfl
  | test at_ =>
    exact hnone (record_processed (by simp [at_])) rfl rfl (fun i => by simp [given, at_])
      fun i => rfl
  | poll at_ step =>
    exact hnone (record_processed (by simp [at_])) rfl rfl (fun i => by simp [given, at_])
      fun i => rfl
  | timeout at_ =>
    exact hnone rfl rfl rfl (fun i => by simp [given, at_]) fun i => rfl
  | filtered may below => exact hkeep (record_processed (by simp)) rfl rfl rfl
  | _ => exact hkeep (record_processed (by simp)) rfl rfl rfl

/-! ## The drain -/

/-- Everything that was accepted before the last `stop` has been processed. -/
def Covered (h : History) : Prop := ∀ c ∈ h.before, ∃ p ∈ h.processed, p.call = c

/-- **Once the drain has found nothing**, everything that was accepted before is processed. -/
structure Drained (s : MessageLogger) (h : History) : Prop where
  before : h.before ⊆ h.accepted
  empty : s.loop = .dequeues .drain → (∃ t, s.message_queue_.pcs t = .dequeued none) → Covered h
  finished : s.loop = .finished → Covered h
  ends : s.control = .ends → Covered h

/-- A drain that gives up does so at a position that nobody has claimed. -/
def Settled (q : MessageLogger × History) (a : Logging.Label) : Prop :=
  ∀ t spurious pos, a = .queue t spurious → q.1.loop = .dequeues .drain →
    q.1.message_queue_.pcs t = .inspect pos →
      q.1.message_queue_.sequence (q.1.message_queue_.index pos) < pos + 1 →
        q.1.message_queue_.enqueuePos ≤ pos

theorem record_before (ha : a = .stop → s.running_ = false) :
    (record s a s' h).before = h.before := by
  unfold record
  split <;> try rfl
  · split_ifs <;> rfl
  · split <;> rfl
  · split_ifs with hrunning
    · rw [ha rfl] at hrunning
      cases hrunning
    · rfl
  · split_ifs <;> rfl
  · split <;> rfl

theorem accepted_subset (s s' : MessageLogger) (a : Logging.Label) (h : History) :
    h.accepted ⊆ (record s a s' h).accepted := by
  by_cases ha : ∃ t, a = .step t
  · obtain ⟨t, rfl⟩ := ha
    simp only [record]
    split
    · exact List.subset_append_left ..
    · exact List.Subset.refl _
  · rw [record_accepted fun t heq => ha ⟨t, heq⟩]
    exact List.Subset.refl _

theorem processed_subset (s s' : MessageLogger) (a : Logging.Label) (h : History) :
    h.processed ⊆ (record s a s' h).processed := by
  by_cases ha : a = .loop
  · subst ha
    simp only [record]
    split
    · exact List.subset_append_left ..
    · exact List.Subset.refl _
  · rw [record_processed fun m p heq => absurd heq ha]
    exact List.Subset.refl _

theorem Covered.record (hc : Covered h) (ha : a = .stop → s.running_ = false) :
    Covered (record s a s' h) := by
  intro c hmem
  rw [record_before ha] at hmem
  obtain ⟨p, hp, hpc⟩ := hc c hmem
  exact ⟨p, processed_subset s s' a h hp, hpc⟩

/-- **A dequeue that gives up where nobody has claimed the position**: everything is processed. -/
theorem all_processed (hserved : s.message_queue_.Served h.processed s.hand)
    (hdrain : ∃ m, s.loop = .dequeues m) {pos : ℕ} (hpc : s.message_queue_.pcs t = .inspect pos)
    (hpos : s.message_queue_.enqueuePos ≤ pos) : h.processed = s.message_queue_.log := by
  obtain ⟨m, hloop⟩ := hdrain
  have hhand : s.hand = none := by simp [hand, hloop]
  rw [hhand] at hserved
  have hconsumes : (s.message_queue_.pcs t).consumes = true := by rw [hpc]; rfl
  have hidle := hserved.idle fun u => by
    by_cases hut : u = t
    · rw [hut, hpc]
      rfl
    · exact hserved.one.holds_ne hconsumes hut
  have hfollows := hserved.one.follows t
  rw [hpc] at hfollows
  obtain rfl : pos = s.message_queue_.dequeuePos := hfollows
  have hprefix : h.processed <+: s.message_queue_.log := by simpa using hserved.isPrefix
  refine hprefix.eq_of_length_le ?_
  rw [hserved.sound.length]
  simp only [Option.toList_none, List.length_nil, Nat.add_zero] at hidle
  omega

theorem Drained.step (hd : s.Drained h) (hcycle : s.Cycle) (hattended : s.Attended)
    (hserved : s.message_queue_.Served h.processed s.hand) (hl : s.Logged h)
    (hsettled : Settled (s, h) a) (hstep : s.Steps a s') : s'.Drained (record s a s' h) := by
  have hbefore (ha : a = .stop → s.running_ = false) :
      (record s a s' h).before ⊆ (record s a s' h).accepted := by
    rw [record_before ha]
    exact fun c hc => accepted_subset s s' a h (hd.before hc)
  -- the processing thread stays where it is
  have hkeep (ha : a = .stop → s.running_ = false) (hloop : s'.loop = s.loop)
      (hpcs : ∀ u, s'.message_queue_.pcs u = .dequeued none →
        s.message_queue_.pcs u = .dequeued none)
      (hcontrol : s'.control = .ends → s.control = .ends) : s'.Drained (record s a s' h) := by
    refine ⟨hbefore ha, fun hat hread => ?_, fun hat => ?_, fun hat => ?_⟩
    · obtain ⟨u, hu⟩ := hread
      exact (hd.empty (hloop ▸ hat) ⟨u, hpcs u hu⟩).record ha
    · exact (hd.finished (hloop ▸ hat)).record ha
    · exact (hd.ends (hcontrol hat)).record ha
  -- it is not in the drain, and `stop` is not at its end
  have helse (ha : a = .stop → s.running_ = false) (hloop : s'.loop ≠ .dequeues .drain)
      (hfinished : s'.loop ≠ .finished) (hcontrol : s'.control = .ends → s.control = .ends) :
      s'.Drained (record s a s' h) :=
    ⟨hbefore ha, fun hat => absurd hat hloop, fun hat => absurd hat hfinished,
      fun hat => (hd.ends (hcontrol hat)).record ha⟩
  cases hstep with
  | @queue t spurious q step =>
    refine ⟨hbefore (by simp), fun hat hread => ?_,
      fun hat => (hd.finished hat).record (by simp), fun hat => (hd.ends hat).record (by simp)⟩
    obtain ⟨u, hu⟩ := hread
    change s.loop = .dequeues .drain at hat
    by_cases hut : u = t
    · subst hut
      obtain ⟨pos, hpc, hseq⟩ := TicketRing.inspects_of_dequeued step hu
      have hall := all_processed hserved ⟨_, hat⟩ hpc (hsettled u spurious pos rfl hat hpc hseq)
      intro c hc
      rw [record_before (by simp)] at hc
      obtain ⟨p, hp, hpcall⟩ := hl.accepted c (hd.before hc)
      exact ⟨p, processed_subset s _ _ h (hall ▸ hp), hpcall⟩
    · exact (hd.empty hat ⟨u, (TicketRing.pcs_other step hut).symm.trans hu⟩).record (by simp)
  | @enqueue t p q at_ step =>
    refine hkeep (by simp) rfl (fun u hu => ?_) id
    by_cases hut : u = t
    · subst hut
      exact absurd ((TicketRing.pcs_enqueue step).2.symm.trans hu) (by simp)
    · exact (TicketRing.pcs_other step hut).symm.trans hu
  | @enqueued t p accepted q at_ step =>
    refine hkeep (by simp) rfl (fun u hu => ?_) id
    by_cases hut : u = t
    · subst hut
      exact absurd ((TicketRing.pcs_leave step).symm.trans hu) (by simp)
    · exact (TicketRing.pcs_other step hut).symm.trans hu
  | @dequeued t m item q at_ loop step =>
    cases item with
    | some p => exact helse (by simp) (by simp [afterDequeue]) (by simp [afterDequeue]) id
    | none =>
      cases m with
      | turn => exact helse (by simp) (by simp [afterDequeue]) (by simp [afterDequeue]) id
      | drain =>
        have hcovered := hd.empty loop ⟨t, at_⟩
        exact ⟨hbefore (by simp), fun _ _ => hcovered.record (by simp),
          fun _ => hcovered.record (by simp), fun _ => hcovered.record (by simp)⟩
  | @poll m q at_ step =>
    refine ⟨hbefore (by simp), fun _ hread => ?_, fun hat => absurd hat (by simp),
      fun hat => (hd.ends hat).record (by simp)⟩
    obtain ⟨u, hu⟩ := hread
    by_cases hut : u = s.worker
    · subst hut
      exact absurd ((TicketRing.pcs_dequeue step).2.symm.trans hu) (by simp)
    · have hfree := hattended.free (by simp [at_]) u
      rw [(TicketRing.pcs_other step hut).symm.trans hu] at hfree
      cases hfree
  | joins at_ loop =>
    refine ⟨hbefore (by simp), fun hat => absurd hat (by simp), fun hat => absurd hat (by simp),
      fun _ => ?_⟩
    rcases loop with hloop | hloop
    · rw [Cycle, at_] at hcycle
      exact absurd hloop hcycle
    · exact (hd.finished hloop).record (by simp)
  | stop control running =>
    have hturn : turning s.loop = true := by
      rw [Cycle, control, running] at hcycle
      exact hcycle.1
    refine ⟨?_, fun hat => ?_, fun hat => ?_, fun hat => absurd hat (by simp)⟩
    · simp [record, running]
    · change s.loop = .dequeues .drain at hat
      rw [hat] at hturn
      cases hturn
    · change s.loop = .finished at hat
      rw [hat] at hturn
      cases hturn
  | idle control running => exact hkeep (fun _ => running) rfl (fun _ => id) id
  | start control running => exact hkeep (by simp) rfl (fun _ => id) (by simp)
  | clears at_ => exact hkeep (by simp) rfl (fun _ => id) (by simp)
  | requests at_ => exact hkeep (by simp) rfl (fun _ => id) (by simp)
  | ends at_ => exact hkeep (by simp) rfl (fun _ => id) (by simp)
  | spawn at_ quiet => exact helse (by simp) (by simp) (by simp) (by simp)
  | test at_ => exact helse (by simp) (by simp) (by simp) id
  | write at_ lt quiet => exact helse (by simp) (by simp) (by simp) id
  | processed at_ le => exact helse (by simp) (by simp) (by simp) id
  | @free m p at_ => exact helse (by simp) (by cases m <;> simp) (by cases m <;> simp) id
  | timeout at_ => exact helse (by simp) (by simp) (by simp) id
  | _ => exact hkeep (by simp) rfl (fun _ => id) id

/-! ## Runs -/

/-- The calls of an output's messages are the first of those in the log of the queue. -/
theorem Fed.front (hf : s.Fed h) (hserved : s.message_queue_.Served h.processed s.hand) {i : ℕ}
    (hi : i < s.outputs) :
    (s.written i).map Written.call <+: s.message_queue_.log.map Pointer.call := by
  rw [hf.calls i hi]
  exact (((List.prefix_append_right_inj _).mpr (s.given_prefix_hand i)).trans
    hserved.isPrefix).map _

theorem Fed.sublist (hf : s.Fed h) (hserved : s.message_queue_.Served h.processed s.hand) {i : ℕ}
    (hi : i < s.outputs) :
    ((s.written i).map Written.call).Sublist (s.message_queue_.log.map Pointer.call) :=
  (hf.front hserved hi).sublist

/-- In the log the calls of one thread are in order. -/
theorem calls_pairwise (ho : s.message_queue_.Ordered tag s.called s.waiting) :
    (s.message_queue_.log.map Pointer.call).Pairwise fun c c' =>
      c.thread = c'.thread → c.number < c'.number :=
  List.pairwise_map.mpr ho.log

/-- No call is in the log twice. -/
theorem calls_nodup (ho : s.message_queue_.Ordered tag s.called s.waiting) :
    (s.message_queue_.log.map Pointer.call).Nodup :=
  (calls_pairwise ho).imp fun hlt hsame => by
    subst hsame
    exact absurd (hlt rfl) (Nat.lt_irrefl _)

/-- **A message that was processed was written once to every output.** -/
theorem writtenOnce_of_processed (hf : s.Fed h)
    (ho : s.message_queue_.Ordered tag s.called s.waiting)
    (hserved : s.message_queue_.Served h.processed s.hand) {p : Pointer} (hp : p ∈ h.processed) :
    writtenOnce s p.call = true := by
  refine List.all_eq_true.mpr fun i hi => ?_
  have hlt : i < s.outputs := List.mem_range.mp hi
  have hmem : p.call ∈ (s.written i).map Written.call := by
    rw [hf.calls i hlt]
    exact List.mem_map_of_mem (List.mem_append_left _ hp)
  have hnodup := (calls_nodup ho).sublist (hf.sublist hserved hlt)
  rw [List.count_eq_one_of_mem hnodup hmem]
  rfl

/-- **What holds in every state of a run.** -/
structure Inv (s : MessageLogger) (h : History) : Prop where
  cycle : s.Cycle
  attended : s.Attended
  served : s.message_queue_.Served h.processed s.hand
  ordered : s.message_queue_.Ordered tag s.called s.waiting
  aligned : s.Aligned
  counted : s.Counted h
  logged : s.Logged h
  custody : s.Custody h
  fed : s.Fed h

theorem Inv.step (hs : s.Inv h) (hstep : s.Steps a s') : s'.Inv (record s a s' h) where
  cycle := hs.cycle.step hstep
  attended := hs.attended.step hs.cycle hstep
  served := served_step hs.served hs.attended hs.cycle hstep
  ordered := ordered_step hs.ordered (fun _ => hs.aligned.offers) hstep
  aligned := hs.aligned.step hstep
  counted := hs.counted.step hs.aligned hstep
  logged := hs.logged.step hs.served.sound hstep
  custody := hs.custody.step hs.ordered hs.aligned hs.served hstep
  fed := hs.fed.step hs.custody hs.served hs.cycle hstep

/-- **What holds in every state** of a run whose drains end where nobody has claimed the position. -/
structure Holds (s : MessageLogger) (h : History) : Prop where
  cycle : s.Cycle
  attended : s.Attended
  served : s.message_queue_.Served h.processed s.hand
  ordered : s.message_queue_.Ordered tag s.called s.waiting
  aligned : s.Aligned
  counted : s.Counted h
  logged : s.Logged h
  custody : s.Custody h
  fed : s.Fed h
  drained : s.Drained h
  left : ∀ l ∈ h.left, l = []

theorem record_left (ha : a = .control → s.control ≠ .ends) :
    (record s a s' h).left = h.left := by
  unfold record
  split <;> try rfl
  · split_ifs <;> rfl
  · split <;> rfl
  · split_ifs <;> rfl
  · split_ifs with hends
    · exact absurd hends (ha rfl)
    · rfl
  · split <;> rfl

/-- A `stop` that returns has left nothing behind. -/
theorem Holds.left_step (hs : s.Holds h) (hstep : s.Steps a s') :
    ∀ l ∈ (record s a s' h).left, l = [] := by
  cases hstep with
  | ends at_ =>
    have hleft (s' : MessageLogger) : (record s .control s' h).left =
        h.left ++ [h.before.filter fun c => !writtenOnce s' c] := by simp [record, at_]
    intro l hl
    rw [hleft] at hl
    rcases List.mem_append.mp hl with hl | hl
    · exact hs.left l hl
    · obtain rfl := List.mem_singleton.mp hl
      refine List.filter_eq_nil_iff.mpr fun c hc => ?_
      obtain ⟨p, hp, rfl⟩ := hs.drained.ends at_ c hc
      have honce : writtenOnce { s with running_ := false, control := .idle } p.call = true :=
        writtenOnce_of_processed hs.fed hs.ordered hs.served hp
      simp [honce]
  | filtered may below =>
    rw [record_left (by simp)]
    exact hs.left
  | clears at_ =>
    rw [record_left (by simp [at_])]
    exact hs.left
  | requests at_ =>
    rw [record_left (by simp [at_])]
    exact hs.left
  | joins at_ loop =>
    rw [record_left (by simp [at_])]
    exact hs.left
  | _ =>
    rw [record_left (by simp)]
    exact hs.left

theorem Holds.step (hs : s.Holds h) (hsettled : Settled (s, h) a) (hstep : s.Steps a s') :
    s'.Holds (record s a s' h) :=
  { Inv.step { hs with } hstep with
    drained := hs.drained.step hs.cycle hs.attended hs.served hs.logged hsettled hstep
    left := hs.left_step hstep }

/-- The logger begins so. -/
theorem holds_init (outputs : ℕ) (capacity : QueueCapacity) :
    Holds { outputs := outputs, message_queue_ := { capacity := capacity.capacity_ } } {} where
  cycle := rfl
  attended := .of_free fun _ => rfl
  served := .empty capacity.two_le
  ordered := .empty
  aligned t _ := .inl rfl
  counted := ⟨∅, by simp, rfl⟩
  logged := ⟨by simp, by simp, by simp⟩
  custody := ⟨by simp [held], by simp [Live, held, Queued], by simp [Live, held, Queued],
    by simp [Filled, held, Queued]⟩
  fed := ⟨by simp [given], by simp⟩
  drained := ⟨by simp, by simp, by simp, by simp⟩
  left := by simp

/-- **What a logger owes to the calls of `log`.** -/
structure Logs (s : MessageLogger) (h : History) : Prop where
  /-- Once all calls have returned, each was counted as logged or as dropped. -/
  counted : (∀ t, s.logging t = .out) → h.passed = s.messages_logged + s.messages_dropped
  /-- Every output has the messages of one thread in the order of its calls, -/
  order (i : ℕ) : i < s.outputs → ((s.written i).map Written.call).Pairwise fun c c' =>
    c.thread = c'.thread → c.number < c'.number
  /-- as they were logged, -/
  content (i : ℕ) (w : Written) : i < s.outputs → w ∈ s.written i → w.content = some w.call.message
  /-- and whenever `stop` returned, exactly once those that were accepted before. -/
  left (l : List LogCall) : l ∈ h.left → l = []

/-- **In every run whose drains end at a position that nobody has claimed, the logger does what it
owes**, whatever the threads and the outputs do. -/
theorem logs (outputs : ℕ) (capacity : QueueCapacity) {q : MessageLogger × History}
    (hq : (observed outputs capacity).ReachableUnder Settled q) : q.1.Logs q.2 := by
  have hholds : q.1.Holds q.2 := by
    refine hq.invariant (I := fun q => q.1.Holds q.2) ⟨?_, ?_⟩
    · rintro ⟨s, h⟩ ⟨rfl, rfl⟩
      exact holds_init outputs capacity
    · rintro ⟨s, h⟩ a ⟨s', h'⟩ hs hsettled hstep
      obtain ⟨hst, hrecord⟩ := Machine.withHistory_step.mp hstep
      dsimp only at hrecord
      subst hrecord
      exact hs.step hsettled (steps hst)
  refine ⟨fun hout => ?_, fun i hi => ?_, hholds.fed.content, hholds.left⟩
  · obtain ⟨calls, hcalls, hsum⟩ := hholds.counted
    have hempty : calls = ∅ :=
      Finset.eq_empty_of_forall_notMem fun t ht => (hcalls t).mp ht (hout t)
    rw [hsum, hempty]
    rfl
  · exact (calls_pairwise hholds.ordered).sublist (hholds.fed.sublist hholds.served hi)

/-- A message, a logger with one output, and a call of `log` from its beginning to its end. -/
def note : LogMessage := { level := .info, category := "core", message := "ready" }

def fresh : MessageLogger × History :=
  ({ outputs := 1, message_queue_ := { capacity := ThreadSafeQueue.smallest.capacity_ } }, {})

theorem fresh_init : (observed 1 ThreadSafeQueue.smallest).init fresh := ⟨rfl, rfl⟩

def logged (t : LogThread) (b : ℕ) : List Logging.Label :=
  [.log t note, .allocate t (some b), .step t] ++ List.replicate 5 (.queue t false) ++
    [.returns t, .step t]

/-- `start`, a message, and `stop`: the drain finds the message, and then nothing. -/
def drained : List Logging.Label :=
  [.start, .control, .spawn 3] ++ logged 2 1 ++ [.stop, .control, .loop, .loop] ++
    List.replicate 5 (.queue 3 false) ++ [.returns 3] ++ List.replicate 4 .loop ++
    [.queue 3 false, .queue 3 false, .returns 3, .control, .control]

theorem logs_drained : ∃ q, (observed 1 ThreadSafeQueue.smallest).exec fresh drained = some q ∧
    q.2.before = [⟨2, 0, note⟩] ∧ q.2.left = [[]] ∧ q.1.Logs q.2 := by
  have hrun : ((observed 1 ThreadSafeQueue.smallest).exec fresh drained).any
      (fun q => q.2.before == [⟨2, 0, note⟩] && q.2.left == [[]]) = true := by decide +kernel
  obtain ⟨q, hq, hends⟩ := (Option.any_eq_true _ _).mp hrun
  rw [Bool.and_eq_true, beq_iff_eq, beq_iff_eq] at hends
  have hchecks : (observed 1 ThreadSafeQueue.smallest).checks (fun q a => match a with
      | .queue t _ => match q.1.message_queue_.pcs t with
        | .inspect pos => decide (q.1.message_queue_.sequence (q.1.message_queue_.index pos) =
            pos + 1 ∨ q.1.message_queue_.enqueuePos ≤ pos)
        | _ => true
      | _ => true) fresh drained = true := by decide +kernel
  have hallowed := Machine.allowed_of_checks (G := Settled) (fun q a hg => ?_) hchecks
  · exact ⟨q, hq, hends.1, hends.2,
      logs 1 ThreadSafeQueue.smallest (.exec (.init fresh_init) hallowed hq)⟩
  · rintro t spurious pos rfl - hpc hseq
    simp only [hpc] at hg
    rcases of_decide_eq_true hg with hfull | hle
    · omega
    · exact hle

/-- A thread has claimed the first slot and not filled it; a later message is accepted behind it,
and `stop` returns with that one unwritten. -/
def overtaken : List Logging.Label :=
  [.start, .control, .spawn 3, .log 1 note, .allocate 1 (some 0), .step 1] ++
    List.replicate 3 (.queue 1 false) ++ logged 2 1 ++ [.stop, .control, .loop, .loop,
    .queue 3 false, .queue 3 false, .returns 3, .control, .control]

/-- **A `stop` misses a message** that was accepted before. -/
theorem stop_misses_message :
    ¬ ∀ outputs capacity q, (observed outputs capacity).Reachable q → q.1.Logs q.2 := by
  intro h
  have hrun : ((observed 1 ThreadSafeQueue.smallest).exec fresh overtaken).any
      (fun q => q.2.left == [[⟨2, 0, note⟩]]) = true := by decide +kernel
  obtain ⟨q, hq, hleft⟩ := (Option.any_eq_true _ _).mp hrun
  rw [beq_iff_eq] at hleft
  have hall := (h 1 ThreadSafeQueue.smallest q (.exec (.init fresh_init) hq)).left
  rw [hleft] at hall
  exact absurd (hall _ (List.mem_singleton_self _)) (by simp)

/-! ## Every run -/

/-- **What every run keeps**, however a `stop` ends. -/
structure Keeps (s : MessageLogger) (h : History) : Prop where
  /-- The outputs have been given the first messages of the queue's log, -/
  front (i : ℕ) : i < s.outputs →
    (s.written i).map Written.call <+: s.message_queue_.log.map Pointer.call
  content (i : ℕ) (w : Written) : i < s.outputs → w ∈ s.written i → w.content = some w.call.message
  /-- in which those of one thread are in the order of its calls, -/
  order : (s.message_queue_.log.map Pointer.call).Pairwise fun c c' =>
    c.thread = c'.thread → c.number < c'.number
  /-- and an accepted message that is not written is behind those, in a block of its own. -/
  kept (c : LogCall) : c ∈ h.accepted → writtenOnce s c = true ∨
    ∃ p, p.call = c ∧ s.Queued h p ∧ s.allocated p.block = true ∧
      s.memory p.block = some c.message

end MessageLogger

end AxonVex
